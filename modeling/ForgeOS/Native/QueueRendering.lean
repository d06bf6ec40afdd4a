import Mathlib.Data.Int.Notation
import Mathlib.Data.List.Basic
import Mathlib.Logic.Function.Basic

/-! The rendering of the queue in finite batches. The script takes the place of the component's own
function and gives a long queue out by its front, a few items more with each timer. The page may
change anything of its own between two steps, may take the function's place in turn, and may call it
again while it sets the items. That a property of the page throws is left out but for
`setProperties`, and so are the delays: a timer goes off at any time after it was set. -/

namespace ForgeOS.Native.QueueRendering

variable {α : Type*}

/-- Arrays are compared by identity. -/
inductive Value
  | array (r : ℕ)
  | other (n : ℕ)
  deriving DecidableEq, Repr

/-- A function of the page, or the one of a state of the script. -/
inductive Method
  | own (f : ℕ)
  | wrapped (i : ℕ)
  deriving DecidableEq, Repr

/-- Elements and components have numbers. -/
structure Page (α : Type*) where
  home : Bool
  queue : Option ℕ
  inst : ℕ → Option ℕ
  polymerController : ℕ → Option ℕ
  isConnected : ℕ → Bool
  data : ℕ → Value
  items : ℕ → List α
  computeShowItemsToRender : ℕ → Option Method
  setProperties : ℕ → Bool
  selectedQueueItemIndex : ℕ → Option ℤ
  itemsToRender : ℕ → Option (List α)

/-- The object `s` of the script. -/
structure Rendering where
  q : ℕ
  c : ℕ
  original : Method
  timer : Option ℕ
  generation : ℕ
  input : Option ℕ
  size : ℕ
  failed : Bool

structure Timer where
  state : ℕ
  a : ℕ
  g : ℕ

/-- Beside the page and the states of the script stands what the page's own function gave when it
was last asked through each of them. -/
structure State (α : Type*) where
  page : Page α
  states : ℕ → Rendering
  count : ℕ
  current : Option ℕ
  timers : ℕ → Option Timer
  made : ℕ
  given : ℕ → Option (Option (List α))

def Page.value (p : Page α) : Value → Option (List α)
  | .array r => some (p.items r)
  | .other _ => none

def State.modify (s : State α) (i : ℕ) (f : Rendering → Rendering) : State α :=
  { s with states := Function.update s.states i (f (s.states i)) }

def State.setItems (s : State α) (c : ℕ) (items : Option (List α)) : State α :=
  { s with page := { s.page with itemsToRender := Function.update s.page.itemsToRender c items } }

def State.place (s : State α) (c : ℕ) (m : Method) : State α :=
  { s with
    page := { s.page with
      computeShowItemsToRender := Function.update s.page.computeShowItemsToRender c (some m) } }

def clearTimeout (id : Option ℕ) (timers : ℕ → Option Timer) : ℕ → Option Timer :=
  match id with
  | some id => Function.update timers id none
  | none => timers

def cancel (i : ℕ) (s : State α) : State α :=
  { s with timers := clearTimeout (s.states i).timer s.timers }.modify i fun x =>
    { x with timer := none, generation := x.generation + 1 }

def restore (i : ℕ) (s : State α) : State α :=
  let s := cancel i s
  if s.page.computeShowItemsToRender (s.states i).c = some (.wrapped i) then
    s.place (s.states i).c (s.states i).original
  else s

def connected (p : Page α) (x : Rendering) : Bool :=
  p.isConnected x.q && p.queue == some x.q && p.inst x.q == some x.c &&
    p.polymerController x.q == some x.c

/-- The place of the selected item among this many. -/
def selected (p : Page α) (c length : ℕ) : ℕ :=
  match p.selectedQueueItemIndex c with
  | some n => if 0 ≤ n ∧ n < length then n.toNat else 0
  | none => 0

/-- `answer` is what the page's own function gives, or nothing where `setProperties` throws. -/
def fail (i : ℕ) (answer : Option (Option (List α))) (s : State α) : State α :=
  let s := (restore i s).modify i fun x => { x with failed := true }
  if connected s.page (s.states i) then
    match answer with
    | some items => s.setItems (s.states i).c items
    | none => s
  else s

def schedule (i a g : ℕ) (s : State α) : State α :=
  { s with timers := Function.update s.timers s.made (some ⟨i, a, g⟩), made := s.made + 1 }.modify i
    fun x => { x with timer := some s.made }

/-- The array that the wrapper gives out by its front; there is none where the page's own answer
stands. -/
def accepted (s : State α) (i : ℕ) (a full : Value) : Option ℕ :=
  match a with
  | .other _ => none
  | .array r =>
    if 1000 < (s.page.items r).length ∨ a ≠ s.page.data (s.states i).q ∨ full ≠ a ∨
        !connected s.page (s.states i) then none
    else some r

def release (i : ℕ) (s : State α) : State α :=
  (cancel i s).modify i fun x => { x with input := none }

/-- A new array has a generation of its own. -/
def takeUp (i r n : ℕ) (s : State α) : State α :=
  if (s.states i).input ≠ some r then
    let s := (cancel i s).modify i fun x =>
      { x with input := some r, size := min (s.page.items r).length (max 4 (n + 3)) }
    if (s.states i).size < (s.page.items r).length then schedule i r (s.states i).generation s
    else s
  else s

def ensure (i r : ℕ) (s : State α) : State α :=
  if (s.states i).size < (s.page.items r).length ∧ (s.states i).timer = none then
    schedule i r (s.states i).generation s
  else s

def raise (floor : ℕ) (x : Rendering) : Rendering := { x with size := max x.size floor }

def serve (i r : ℕ) (s : State α) : State α :=
  let length := (s.page.items r).length
  let n := selected s.page (s.states i).c length
  ensure i r ((takeUp i r n s).modify i (raise (min length (n + 3))))

/-- The wrapper's answer to `a`, where the page's own function gave `full`. -/
def wrapped (i : ℕ) (a full : Value) (s : State α) : State α × Option (List α) :=
  match accepted s i a full with
  | none => (release i s, s.page.value full)
  | some r =>
    let s := serve i r s
    (s, some ((s.page.items r).take (s.states i).size))

/-! ### Maintenance -/

inductive Answer
  | leave
  | disabled
  | installed
  deriving DecidableEq, Repr

def install (q c : ℕ) (original : Method) (s : State α) : State α :=
  { s.place c (.wrapped s.count) with
    states := Function.update s.states s.count ⟨q, c, original, none, 0, none, 0, false⟩
    count := s.count + 1
    current := some s.count
    given := Function.update s.given s.count none }

def supersede (s : State α) : State α :=
  let q := s.page.queue
  match s.current with
  | some i =>
    if q ≠ some (s.states i).q ∨ q.bind s.page.inst ≠ some (s.states i).c ∨
        !q.any s.page.isConnected then
      { restore i s with current := none }
    else s
  | none => s

def giveUp (i : ℕ) (s : State α) : State α :=
  (restore i s).modify i fun x => { x with failed := true }

/-- One evaluation of the script. -/
def maintain (s : State α) : State α × Answer :=
  if !s.page.home then (s, .leave)
  else
    let s := supersede s
    match s.page.queue, s.page.queue.bind s.page.inst with
    | some q, some c =>
      if s.page.polymerController q ≠ some c ∨ !s.page.isConnected q ∨ !s.page.setProperties c then
        (s, .leave)
      else
        match s.page.computeShowItemsToRender c with
        | none => (s, .leave)
        | some original =>
          match s.current.filter fun i => (s.states i).c = c with
          | some i =>
            let s := if !(s.states i).failed ∧ original ≠ .wrapped i then giveUp i s else s
            (s, if (s.states i).failed then .disabled else .installed)
          | none => (install q c original s, .installed)
    | _, _ => (s, .leave)

/-! ### Steps -/

/-- What can also happen while the script sets the items. `render` gives an element new data and
computes its items by the function that the component has; `call` is a call of a wrapper that the
page has kept. -/
inductive Change (α : Type*)
  | page (p : Page α)
  | render (q c : ℕ) (a : Value) (items : ℕ → List α) (full : Value)
  | overtake (c f : ℕ)
  | call (i : ℕ) (a full : Value)
  | maintain

/-- How `setProperties` ends. -/
inductive Setting (α : Type*)
  | done (changes : List (Change α))
  | thrown (answer : Option (Option (List α)))

inductive Event (α : Type*)
  | change (e : Change α)
  | fire (id : ℕ) (setting : Setting α)

def State.feed (s : State α) (q : ℕ) (a : Value) (items : ℕ → List α) : State α :=
  { s with page := { s.page with data := Function.update s.page.data q a, items := items } }

/-- The component computes its items from `a`. -/
def compute (c : ℕ) (a full : Value) (s : State α) : State α :=
  match s.page.computeShowItemsToRender c with
  | some (.wrapped i) =>
    let r := wrapped i a full s
    { r.1 with given := Function.update r.1.given i (some (s.page.value full)) }.setItems c r.2
  | _ => s.setItems c (s.page.value full)

def change (s : State α) : Change α → State α
  | .page p => { s with page := p }
  | .render q c a items full => compute c a full (s.feed q a items)
  | .overtake c f => s.place c (.own f)
  | .call i a full => (wrapped i a full s).1
  | .maintain => (maintain s).1

def following (s : State α) (i a : ℕ) : ℕ :=
  let length := (s.page.items a).length
  min length (max (selected s.page (s.states i).c length + 3) ((s.states i).size + 4))

def grow (i a : ℕ) (s : State α) : State α := s.modify i fun x => { x with size := following s i a }

def present (i a : ℕ) (s : State α) : State α :=
  s.setItems (s.states i).c (some ((s.page.items a).take (s.states i).size))

/-- The rest of a timer behind `setProperties`. -/
def proceed (i a g size : ℕ) (s : State α) : State α :=
  if g = (s.states i).generation ∧ (s.states i).input = some a ∧
      s.page.data (s.states i).q = .array a ∧ size < (s.page.items a).length then
    schedule i a g s
  else s

/-- The part of a timer that no later generation has called off. -/
def resume (i a g : ℕ) (setting : Setting α) (s : State α) : State α :=
  if !connected s.page (s.states i) then
    let s := restore i s
    if s.current = some i then { s with current := none } else s
  else if s.page.computeShowItemsToRender (s.states i).c ≠ some (.wrapped i) then giveUp i s
  else if (s.states i).input ≠ some a ∨ s.page.data (s.states i).q ≠ .array a then cancel i s
  else if following s i a ≤ (s.states i).size then s
  else
    match setting with
    | .thrown answer => fail i answer (grow i a s)
    | .done changes =>
      proceed i a g (following s i a) (changes.foldl change (present i a (grow i a s)))

def State.remove (s : State α) (id : ℕ) : State α :=
  { s with timers := Function.update s.timers id none }

def unset (x : Rendering) : Rendering := { x with timer := none }

def fire (id : ℕ) (setting : Setting α) (s : State α) : State α :=
  match s.timers id with
  | none => s
  | some ⟨i, a, g⟩ =>
    if g ≠ (s.states i).generation then s.remove id
    else resume i a g setting ((s.remove id).modify i unset)

def step (s : State α) : Event α → State α
  | .change e => change s e
  | .fire id setting => fire id setting s

def initial (p : Page α) : State α :=
  ⟨p, fun _ => ⟨0, 0, .own 0, none, 0, none, 0, false⟩, 0, none, fun _ => none, 0, fun _ => none⟩

def run (s : State α) (es : List (Event α)) : State α := es.foldl step s

/-! ### Pieces of a step -/

section Pieces

variable (s : State α) (i : ℕ) (f : Rendering → Rendering) (c : ℕ) (m : Method)
  (items : Option (List α))

@[simp] theorem modify_page : (s.modify i f).page = s.page := rfl
@[simp] theorem modify_timers : (s.modify i f).timers = s.timers := rfl
@[simp] theorem modify_made : (s.modify i f).made = s.made := rfl
@[simp] theorem modify_count : (s.modify i f).count = s.count := rfl
@[simp] theorem modify_current : (s.modify i f).current = s.current := rfl
@[simp] theorem modify_given : (s.modify i f).given = s.given := rfl

@[simp] theorem modify_self : (s.modify i f).states i = f (s.states i) := Function.update_self ..

@[simp] theorem modify_other {j : ℕ} (h : j ≠ i) : (s.modify i f).states j = s.states j :=
  Function.update_of_ne h ..

@[simp] theorem remove_page (id : ℕ) : (s.remove id).page = s.page := rfl
@[simp] theorem remove_count (id : ℕ) : (s.remove id).count = s.count := rfl
@[simp] theorem remove_current (id : ℕ) : (s.remove id).current = s.current := rfl
@[simp] theorem remove_given (id : ℕ) : (s.remove id).given = s.given := rfl
@[simp] theorem remove_states (id : ℕ) : (s.remove id).states = s.states := rfl

@[simp] theorem remove_timers (id : ℕ) :
    (s.remove id).timers = Function.update s.timers id none := rfl

@[simp] theorem place_states : (s.place c m).states = s.states := rfl
@[simp] theorem place_timers : (s.place c m).timers = s.timers := rfl
@[simp] theorem place_made : (s.place c m).made = s.made := rfl
@[simp] theorem place_count : (s.place c m).count = s.count := rfl
@[simp] theorem place_current : (s.place c m).current = s.current := rfl
@[simp] theorem place_given : (s.place c m).given = s.given := rfl
@[simp] theorem place_data : (s.place c m).page.data = s.page.data := rfl
@[simp] theorem place_items : (s.place c m).page.items = s.page.items := rfl

@[simp] theorem place_itemsToRender : (s.place c m).page.itemsToRender = s.page.itemsToRender := rfl

@[simp] theorem place_compute : (s.place c m).page.computeShowItemsToRender =
    Function.update s.page.computeShowItemsToRender c (some m) := rfl

@[simp] theorem setItems_states : (s.setItems c items).states = s.states := rfl
@[simp] theorem setItems_timers : (s.setItems c items).timers = s.timers := rfl
@[simp] theorem setItems_made : (s.setItems c items).made = s.made := rfl
@[simp] theorem setItems_count : (s.setItems c items).count = s.count := rfl
@[simp] theorem setItems_current : (s.setItems c items).current = s.current := rfl
@[simp] theorem setItems_given : (s.setItems c items).given = s.given := rfl
@[simp] theorem setItems_data : (s.setItems c items).page.data = s.page.data := rfl
@[simp] theorem setItems_items : (s.setItems c items).page.items = s.page.items := rfl

@[simp] theorem setItems_compute : (s.setItems c items).page.computeShowItemsToRender =
    s.page.computeShowItemsToRender := rfl

@[simp] theorem setItems_itemsToRender : (s.setItems c items).page.itemsToRender =
    Function.update s.page.itemsToRender c items := rfl

@[simp] theorem cancel_page : (cancel i s).page = s.page := rfl
@[simp] theorem cancel_made : (cancel i s).made = s.made := rfl
@[simp] theorem cancel_count : (cancel i s).count = s.count := rfl
@[simp] theorem cancel_current : (cancel i s).current = s.current := rfl
@[simp] theorem cancel_given : (cancel i s).given = s.given := rfl

@[simp] theorem cancel_timers :
    (cancel i s).timers = clearTimeout (s.states i).timer s.timers := rfl

@[simp] theorem cancel_self : (cancel i s).states i =
    { s.states i with timer := none, generation := (s.states i).generation + 1 } := modify_self ..

@[simp] theorem cancel_other {j : ℕ} (h : j ≠ i) : (cancel i s).states j = s.states j :=
  modify_other _ _ _ h

variable (a g : ℕ)

@[simp] theorem schedule_page : (schedule i a g s).page = s.page := rfl
@[simp] theorem schedule_made : (schedule i a g s).made = s.made + 1 := rfl
@[simp] theorem schedule_count : (schedule i a g s).count = s.count := rfl
@[simp] theorem schedule_current : (schedule i a g s).current = s.current := rfl
@[simp] theorem schedule_given : (schedule i a g s).given = s.given := rfl

@[simp] theorem schedule_timers :
    (schedule i a g s).timers = Function.update s.timers s.made (some ⟨i, a, g⟩) := rfl

@[simp] theorem schedule_self :
    (schedule i a g s).states i = { s.states i with timer := some s.made } := modify_self ..

@[simp] theorem schedule_other {j : ℕ} (h : j ≠ i) : (schedule i a g s).states j = s.states j :=
  modify_other _ _ _ h

end Pieces

theorem clearTimeout_some {id : Option ℕ} {timers : ℕ → Option Timer} {k : ℕ} {t : Timer}
    (h : clearTimeout id timers k = some t) : timers k = some t := by
  cases id with
  | none => exact h
  | some n =>
    by_cases hk : k = n
    · subst hk
      simp [clearTimeout] at h
    · simpa [clearTimeout, hk] using h

theorem clearTimeout_of_ne {id : Option ℕ} {timers : ℕ → Option Timer} {k : ℕ} (h : id ≠ some k) :
    clearTimeout id timers k = timers k := by
  cases id with
  | none => rfl
  | some n =>
    have hk : k ≠ n := fun e => h (by rw [e])
    simp [clearTimeout, hk]

/-! ### Timers and wrappers -/

/-- Each pending timer of the present generation of a state is for the array that the state gives
out; the handle of a state is one of them; wrappers stand where they were installed, and what they
have replaced is older. -/
structure Sound (s : State α) : Prop where
  made {id : ℕ} {t : Timer} : s.timers id = some t → id < s.made
  owner {id : ℕ} {t : Timer} : s.timers id = some t → t.state < s.count
  past {id : ℕ} {t : Timer} : s.timers id = some t → t.g ≤ (s.states t.state).generation
  same {id : ℕ} {t : Timer} : s.timers id = some t → t.g = (s.states t.state).generation →
    (s.states t.state).input = some t.a
  handle {i id : ℕ} : (s.states i).timer = some id →
    ∃ a, s.timers id = some ⟨i, a, (s.states i).generation⟩
  placed {c i : ℕ} : s.page.computeShowItemsToRender c = some (.wrapped i) →
    i < s.count ∧ (s.states i).c = c
  replaced {i j : ℕ} : i < s.count → (s.states i).original = .wrapped j →
    j < i ∧ (s.states j).c = (s.states i).c
  latest {i : ℕ} : s.current = some i → i + 1 = s.count

/-- The page begins with functions of its own. -/
def Untouched (p : Page α) : Prop := ∀ c i, p.computeShowItemsToRender c ≠ some (.wrapped i)

theorem sound_initial {p : Page α} (h : Untouched p) : Sound (initial p) where
  made h := nomatch h
  owner h := nomatch h
  past h := nomatch h
  same h := nomatch h
  handle h := nomatch h
  placed hc := absurd hc (h _ _)
  replaced hi := absurd hi (Nat.not_lt_zero _)
  latest h := nomatch h

/-- A change of a state that concerns neither its timers nor what it has replaced. -/
structure Keeps (f : Rendering → Rendering) : Prop where
  timer (x : Rendering) : (f x).timer = x.timer
  generation (x : Rendering) : (f x).generation = x.generation
  original (x : Rendering) : (f x).original = x.original
  q (x : Rendering) : (f x).q = x.q
  c (x : Rendering) : (f x).c = x.c

variable {s s' : State α} {i j a g : ℕ}

/-- Fewer timers are pending, and where the generation stays the array does. -/
theorem Sound.fewer (h : Sound s)
    (htimers : ∀ {k : ℕ} {t : Timer}, s'.timers k = some t → s.timers k = some t)
    (hmade : s'.made = s.made) (hcount : s'.count = s.count) (hcurrent : s'.current = s.current)
    (hpage : s'.page.computeShowItemsToRender = s.page.computeShowItemsToRender)
    (hc : ∀ k, (s'.states k).c = (s.states k).c)
    (horiginal : ∀ k, (s'.states k).original = (s.states k).original)
    (hgeneration : ∀ k, (s.states k).generation ≤ (s'.states k).generation)
    (hinput : ∀ k, (s'.states k).generation = (s.states k).generation →
      (s'.states k).input = (s.states k).input)
    (hhandle : ∀ {k n : ℕ}, (s'.states k).timer = some n →
      ∃ a, s'.timers n = some ⟨k, a, (s'.states k).generation⟩) : Sound s' where
  made ht := hmade ▸ h.made (htimers ht)
  owner ht := hcount ▸ h.owner (htimers ht)
  past ht := Nat.le_trans (h.past (htimers ht)) (hgeneration _)
  same {n t} ht hg := by
    have hpast := h.past (htimers ht)
    have hle := hgeneration t.state
    have heq : (s'.states t.state).generation = (s.states t.state).generation := by omega
    rw [hinput _ heq]
    exact h.same (htimers ht) (by omega)
  handle := hhandle
  placed {c k} hplaced := by
    rw [hpage] at hplaced
    rw [hcount, hc]
    exact h.placed hplaced
  replaced {k l} hk hor := by
    rw [hcount] at hk
    rw [horiginal] at hor
    rw [hc, hc]
    exact h.replaced hk hor
  latest hcur := by
    rw [hcurrent] at hcur
    rw [hcount]
    exact h.latest hcur

/-- Two handles are never the same timer. -/
theorem Sound.handle_ne (h : Sound s) (hne : j ≠ i) {n : ℕ} (hj : (s.states j).timer = some n) :
    (s.states i).timer ≠ some n := by
  intro hi
  obtain ⟨a, ha⟩ := h.handle hi
  obtain ⟨b, hb⟩ := h.handle hj
  rw [ha] at hb
  cases hb
  exact hne rfl

theorem Sound.renew (h : Sound s) (i : ℕ) {f : Rendering → Rendering} (hf : Keeps f) :
    Sound ((cancel i s).modify i f) := by
  refine h.fewer (fun ht => clearTimeout_some ht) rfl rfl rfl rfl ?_ ?_ ?_ ?_ ?_
  · intro k
    by_cases hk : k = i
    · subst hk
      simp [hf.c]
    · simp [hk]
  · intro k
    by_cases hk : k = i
    · subst hk
      simp [hf.original]
    · simp [hk]
  · intro k
    by_cases hk : k = i
    · subst hk
      simp [hf.generation]
    · simp [hk]
  · intro k hgen
    by_cases hk : k = i
    · subst hk
      simp [hf.generation] at hgen
    · simp [hk]
  · intro k n hn
    by_cases hk : k = i
    · subst hk
      simp [hf.timer] at hn
    · simp only [ne_eq, hk, not_false_eq_true, modify_other, cancel_other, modify_timers,
        cancel_timers] at hn ⊢
      rw [clearTimeout_of_ne (h.handle_ne hk hn)]
      exact h.handle hn

theorem modify_same (s : State α) (i : ℕ) : (s.modify i fun x => x) = s := by
  simp [State.modify]

theorem Sound.cancel (h : Sound s) (i : ℕ) : Sound (cancel i s) := by
  have := h.renew i (f := fun x => x)
    ⟨fun _ => rfl, fun _ => rfl, fun _ => rfl, fun _ => rfl, fun _ => rfl⟩
  rwa [modify_same] at this

theorem Sound.modify (h : Sound s) (i : ℕ) {f : Rendering → Rendering} (hf : Keeps f)
    (hinput : ∀ x, (f x).input = x.input) : Sound (s.modify i f) := by
  have hstate (k : ℕ) : (s.modify i f).states k = s.states k ∨
      k = i ∧ (s.modify i f).states k = f (s.states k) := by
    by_cases hk : k = i
    · subst hk
      simp
    · simp [hk]
  refine h.fewer (fun ht => ht) rfl rfl rfl rfl ?_ ?_ ?_ ?_ ?_
  · intro k
    rcases hstate k with e | ⟨-, e⟩ <;> simp [e, hf.c]
  · intro k
    rcases hstate k with e | ⟨-, e⟩ <;> simp [e, hf.original]
  · intro k
    rcases hstate k with e | ⟨-, e⟩ <;> simp [e, hf.generation]
  · intro k _
    rcases hstate k with e | ⟨-, e⟩ <;> simp [e, hinput]
  · intro k n hn
    rcases hstate k with e | ⟨-, e⟩ <;> rw [e] at hn ⊢
    · exact h.handle hn
    · rw [hf.generation]
      exact h.handle (hf.timer _ ▸ hn)

theorem Sound.schedule (h : Sound s) (hi : i < s.count) (ha : (s.states i).input = some a) :
    Sound (schedule i a (s.states i).generation s) where
  made {n t} ht := by
    by_cases hn : n = s.made
    · simp [hn]
    · have hold : s.timers n = some t := by simpa [hn] using ht
      have := h.made hold
      simp only [schedule_made]
      omega
  owner {n t} ht := by
    by_cases hn : n = s.made
    · simp only [schedule_timers, hn, Function.update_self, Option.some.injEq] at ht
      simpa [← ht] using hi
    · have hold : s.timers n = some t := by simpa [hn] using ht
      exact h.owner hold
  past {n t} ht := by
    by_cases hn : n = s.made
    · simp only [schedule_timers, hn, Function.update_self, Option.some.injEq] at ht
      simp [← ht]
    · have hold : s.timers n = some t := by simpa [hn] using ht
      have := h.past hold
      by_cases hk : t.state = i
      · simpa [hk] using this
      · simpa [hk] using this
  same {n t} ht hg := by
    by_cases hn : n = s.made
    · simp only [schedule_timers, hn, Function.update_self, Option.some.injEq] at ht
      simpa [← ht] using ha
    · have htimer : s.timers n = some t := by simpa [hn] using ht
      have hold := h.same htimer
      by_cases hk : t.state = i
      · simp only [hk, schedule_self] at hg hold ⊢
        exact hold hg
      · simp only [ne_eq, hk, not_false_eq_true, schedule_other] at hg hold ⊢
        exact hold hg
  handle {k n} hn := by
    by_cases hk : k = i
    · subst hk
      simp only [schedule_self, Option.some.injEq] at hn
      exact ⟨a, by simp [← hn]⟩
    · simp only [ne_eq, hk, not_false_eq_true, schedule_other] at hn
      obtain ⟨b, hb⟩ := h.handle hn
      refine ⟨b, ?_⟩
      have : n ≠ s.made := Nat.ne_of_lt (h.made hb)
      simpa [this, hk] using hb
  placed {c k} hplaced := by
    have := h.placed hplaced
    by_cases hk : k = i
    · subst hk
      simpa using this
    · simpa [hk] using this
  replaced {k l} hk hor := by
    have hc (n : ℕ) : ((ForgeOS.Native.QueueRendering.schedule i a (s.states i).generation
        s).states n).c = (s.states n).c := by
      by_cases hn : n = i
      · subst hn
        simp
      · simp [hn]
    have horiginal : (s.states k).original = .wrapped l := by
      by_cases hki : k = i
      · subst hki
        simpa using hor
      · simpa [hki] using hor
    rw [hc, hc]
    exact h.replaced hk horiginal
  latest hcur := h.latest hcur

/-- A timer that goes off is no longer pending, and the handle of its state is cleared unless a
later generation has called it off. -/
theorem Sound.drop (h : Sound s) {id : ℕ} (hg : s.timers id = some ⟨i, a, g⟩)
    (hstale : g ≠ (s.states i).generation) :
    Sound (s.remove id) := by
  refine h.fewer ?_ rfl rfl rfl rfl (fun _ => rfl) (fun _ => rfl) (fun _ => Nat.le_refl _)
    (fun _ _ => rfl) ?_
  · intro k t ht
    by_cases hk : k = id
    · simp [hk] at ht
    · simpa [hk] using ht
  · intro k n hn
    obtain ⟨b, hb⟩ := h.handle hn
    refine ⟨b, ?_⟩
    have : n ≠ id := by
      rintro rfl
      rw [hg] at hb
      cases hb
      exact hstale rfl
    simpa [this] using hb

theorem Sound.take (h : Sound s) {id : ℕ} (hg : s.timers id = some ⟨i, a, g⟩) :
    Sound ((s.remove id).modify i unset) := by
  have hstate (k : ℕ) : ((s.remove id).modify i unset).states k =
      if k = i then unset (s.states k) else s.states k := by
    by_cases hk : k = i
    · subst hk
      simp
    · simp [hk]
  refine h.fewer ?_ rfl rfl rfl rfl ?_ ?_ ?_ ?_ ?_
  · intro k t ht
    by_cases hk : k = id
    · simp [hk] at ht
    · simpa [hk] using ht
  · intro k
    rw [hstate]
    split <;> rfl
  · intro k
    rw [hstate]
    split <;> rfl
  · intro k
    rw [hstate]
    split <;> exact Nat.le_refl _
  · intro k _
    rw [hstate]
    split <;> rfl
  · intro k n hn
    rw [hstate] at hn
    by_cases hk : k = i
    · simp [hk, unset] at hn
    · simp only [hk, if_false] at hn
      obtain ⟨b, hb⟩ := h.handle hn
      refine ⟨b, ?_⟩
      have : n ≠ id := by
        rintro rfl
        rw [hg] at hb
        cases hb
        exact hk rfl
      simpa [this, hk] using hb

theorem Sound.setItems (h : Sound s) (c : ℕ) (items : Option (List α)) :
    Sound (s.setItems c items) :=
  ⟨h.made, h.owner, h.past, h.same, h.handle, h.placed, h.replaced, h.latest⟩

theorem Sound.page (h : Sound s) {p : Page α}
    (hp : p.computeShowItemsToRender = s.page.computeShowItemsToRender) :
    Sound { s with page := p } :=
  ⟨h.made, h.owner, h.past, h.same, h.handle, fun hc => h.placed (hp ▸ hc), h.replaced, h.latest⟩

theorem Sound.given (h : Sound s) (given : ℕ → Option (Option (List α))) :
    Sound { s with given := given } :=
  ⟨h.made, h.owner, h.past, h.same, h.handle, h.placed, h.replaced, h.latest⟩

theorem Sound.forget (h : Sound s) : Sound { s with current := none } :=
  ⟨h.made, h.owner, h.past, h.same, h.handle, h.placed, h.replaced, fun hn => nomatch hn⟩

theorem Sound.place (h : Sound s) {c : ℕ} {m : Method}
    (hm : ∀ k, m = .wrapped k → k < s.count ∧ (s.states k).c = c) : Sound (s.place c m) := by
  refine ⟨h.made, h.owner, h.past, h.same, h.handle, ?_, h.replaced, h.latest⟩
  intro d k hk
  by_cases hd : d = c
  · subst hd
    simp only [place_compute, Function.update_self, Option.some.injEq] at hk
    exact hm k hk
  · exact h.placed (by simpa [hd] using hk)

theorem Sound.restore (h : Sound s) (hi : i < s.count) : Sound (restore i s) := by
  simp only [QueueRendering.restore]
  split
  · refine (h.cancel i).place ?_
    intro k hk
    simp only [cancel_self] at hk
    obtain ⟨hlt, hc⟩ := h.replaced hi hk
    have hki : k ≠ i := by omega
    simp only [cancel_count, ne_eq, hki, not_false_eq_true, cancel_other, cancel_self]
    exact ⟨by omega, hc⟩
  · exact h.cancel i

theorem keeps_failed : Keeps fun x => { x with failed := true } :=
  ⟨fun _ => rfl, fun _ => rfl, fun _ => rfl, fun _ => rfl, fun _ => rfl⟩

theorem keeps_raise (floor : ℕ) : Keeps (raise floor) :=
  ⟨fun _ => rfl, fun _ => rfl, fun _ => rfl, fun _ => rfl, fun _ => rfl⟩

theorem keeps_input (input : Option ℕ) : Keeps fun x => { x with input := input } :=
  ⟨fun _ => rfl, fun _ => rfl, fun _ => rfl, fun _ => rfl, fun _ => rfl⟩

theorem keeps_taken (input : Option ℕ) (size : ℕ) :
    Keeps fun x => { x with input := input, size := size } :=
  ⟨fun _ => rfl, fun _ => rfl, fun _ => rfl, fun _ => rfl, fun _ => rfl⟩

theorem Sound.giveUp (h : Sound s) (hi : i < s.count) : Sound (giveUp i s) :=
  (h.restore hi).modify i keeps_failed fun _ => rfl

theorem Sound.fail (h : Sound s) (hi : i < s.count) (answer : Option (Option (List α))) :
    Sound (fail i answer s) := by
  have := h.giveUp hi
  simp only [QueueRendering.fail]
  split
  · cases answer with
    | none => exact this
    | some items => exact this.setItems _ _
  · exact this

theorem Sound.release (h : Sound s) (i : ℕ) : Sound (release i s) := h.renew i (keeps_input none)

theorem Sound.takeUp (h : Sound s) (hi : i < s.count) (r n : ℕ) : Sound (takeUp i r n s) := by
  simp only [QueueRendering.takeUp]
  split
  · have ht := h.renew i (keeps_taken (some r) (min (s.page.items r).length (max 4 (n + 3))))
    split
    · exact ht.schedule (a := r) hi (by simp)
    · exact ht
  · exact h

theorem takeUp_input (s : State α) (i r n : ℕ) : ((takeUp i r n s).states i).input = some r := by
  simp only [takeUp]
  split
  · split <;> simp
  · next hr => simpa using hr

theorem takeUp_count (s : State α) (i r n : ℕ) : (takeUp i r n s).count = s.count := by
  simp only [takeUp]
  split
  · split <;> rfl
  · rfl

theorem Sound.ensure (h : Sound s) (hi : i < s.count) {r : ℕ} (hr : (s.states i).input = some r) :
    Sound (ensure i r s) := by
  simp only [QueueRendering.ensure]
  split
  · exact h.schedule hi hr
  · exact h

theorem Sound.serve (h : Sound s) (hi : i < s.count) (r : ℕ) : Sound (serve i r s) := by
  refine Sound.ensure (((h.takeUp hi _ _).modify i (keeps_raise _)) fun _ => rfl) ?_ ?_
  · rw [modify_count, takeUp_count]
    exact hi
  · rw [modify_self]
    exact takeUp_input ..

theorem Sound.wrapped (h : Sound s) (hi : i < s.count) (a full : Value) :
    Sound (wrapped i a full s).1 := by
  simp only [QueueRendering.wrapped]
  split
  · exact h.release i
  · exact h.serve hi _

end ForgeOS.Native.QueueRendering
