import ForgeOS.Native.Bridge
import ForgeOS.Native.Evaluation

/-! The expressions that the music bridge has evaluated in its page. None of them is one byte too
long for the buffer into which `evaluate` quotes it. -/

namespace ForgeOS.Native.Expressions

/-- A text that stands in the source on several lines. -/
def text (lines : List String) : Bytes := lines.flatMap ascii

/-! ### The texts -/

/-- `STATE` -/
def stateExpression : Bytes := text [
  "(()=>\x7bif(location.origin!=='https://music.youtube.com')throw ",
  "Error('origin');const p=document.querySelector('#movie_player'),need=",
  "['getPlayerState','getCurrentTime','getVolume','getVideoData','getOption'];if(!p||",
  "!need.every(k=>typeof p[k]==='function'))throw Error('player');const ",
  "clean=s=>String(s||'').replace(/[^ -~]/g,' ').slice(0,80),data=p.",
  "getVideoData()||\x7b\x7d,state=p.getPlayerState(),time=Number(p.getCurrentTime()),",
  "volume=Number(p.",
  "getVolume()),id=String(data.video_id||''),title=clean(data.title||'').trim();",
  "const casting=p.getOption('remote','casting');if(typeof ",
  "casting!=='boolean')throw Error('output');let output='THIS TABLET';",
  "if(casting)\x7boutput='CAST SPEAKERS';const r=p.getOption('remote',",
  "'currentReceiver'),name=clean(r&&r.name).trim();",
  "if(name)output=name\x7dconst errors=Array.from(document.querySelectorAll?",
  "document.querySelectorAll(",
  "'.ytp-error-content-wrap,yt-playability-error-supported-renderers'):[]).slice(0,",
  "8).map(e=>(\x7be,text:clean(e.textContent).trim()\x7d)).filter(x=>x.text&&",
  "(typeof x.e.checkVisibility==='function'?x.e.checkVisibility():x.e.offsetParent!==null));",
  "const error=errors.find(x=>/too many devices streaming|streaming on your plan right ",
  "now/i.test(x.text));const status=error?'STREAM_LIMIT':errors.length?'PLAYER_ERROR':!id||",
  "!title?'CHOOSE':state===3?'BUFFERING':'READY';return ",
  "[Number(state===1),Math.floor(",
  "Number.isFinite(time)&&time>=0&&time<=86400?time*48000:0),Math.round(",
  "Number.isFinite(volume)&&volume>=0&&volume<=100?volume:0),clean(data.",
  "title||'SELECT A TRACK'),clean(data.author||'YOUTUBE MUSIC'),output,status,id].",
  "join('\t')\x7d)()"]

def recoverEmpty : Bytes := text [
  "(()=>\x7bif(location.origin!=='https://music.youtube.com'||location.pathname!=='/'||",
  "document.readyState!=='complete'||!document.body||document.querySelector('ytmusic-app')||",
  "!Array.from(document.body.children).every(e=>e.tagName==='SCRIPT'||e.tagName==='NOSCRIPT'))",
  "return 'leave';setTimeout(()=>location.reload(),0);return 'retry'\x7d)()"]

def recoverStalledPlayerUi : Bytes := text [
  "(()=>\x7bif(location.origin!=='https://music.youtube.com')return 'leave';const page=",
  "document.querySelector('ytmusic-player-page'),ui=page?.getAttribute('player-ui-state');",
  "if(!page||(ui!=='PLAYER_BAR_ONLY'&&ui!=='PLAYER_PAGE_OPEN')||typeof page.getAnimations!==",
  "'function'||typeof performance?.now!=='function')return 'leave';const key=Symbol.for",
  "('forge.music.bridge.stalled-player-ui.v1'),cache=globalThis[key]instanceof WeakMap?",
  "globalThis[key]:(globalThis[key]=new WeakMap),now=performance.now();for(const animation of ",
  "page.getAnimations())\x7bconst effect=animation.effect,timing=effect?.getTiming?.(),",
  "computed=",
  "effect?.getComputedTiming?.(),duration=Number(timing?.duration),",
  "end=Number(computed?.endTime);",
  "if(effect?.target!==page||animation.pending!==true||animation.playState!=='running'||",
  "animation.startTime!==null||!Number.isFinite(animation.playbackRate)||",
  "animation.playbackRate<=0||!Number.isFinite(duration)||duration<=0||duration>1000||",
  "Number(timing?.iterations)!==1||!Number.isFinite(end)||end<=0||end>1000)",
  "\x7bcache.delete(animation);",
  "continue\x7dconst current=Number(animation.currentTime);",
  "if(!Number.isFinite(current))\x7bcache.delete",
  "(animation);continue\x7dconst signature=JSON.stringify([ui,duration,timing.iterations,end,",
  "animation.playbackRate,animation.startTime]),prior=cache.get(animation);",
  "if(!prior||prior.current!==current||prior.effect!==effect||prior.signature!==signature)",
  "\x7bcache.set",
  "(animation,\x7bcurrent,effect,signature,seen:now\x7d);",
  "continue\x7dif(now-prior.seen<2000||prior.attempted)continue;prior.",
  "attempted=true;try\x7banimation.finish();return 'finished'\x7dcatch(_)\x7breturn ",
  "'finish-error'\x7d\x7dreturn ",
  "'waiting'\x7d)()"]

def maintainMusicQueueRendering : Bytes := text [
  "(()=>\x7b\n",
  "  if(location.origin!=='https://music.youtube.com')return 'leave';\n",
  "  const key=Symbol.for('forge.music.bridge.queue-rendering.v1');\n",
  "  const cancel=s=>\x7bif(s.timer)clearTimeout(s.timer);s.timer=0;s.generation++\x7d;\n",
  "  const restore=s=>\x7bcancel(s);try\x7bif(s.c.computeShowItemsToRender===s.wrapped)",
  "s.c.computeShowItemsToRender=s.original\x7dcatch(_)\x7b\x7d\x7d;\n",
  "  const q=document.querySelector('ytmusic-player-queue'),c=q?.inst,old=globalThis[key];\n",
  "  if(old&&(old.q!==q||old.c!==c||q?.isConnected!==true))\x7brestore(old);",
  "delete globalThis[key]\x7d\n",
  "  if(!q||!c||q.polymerController!==c||q.isConnected!==true||typeof ",
  "c.computeShowItemsToRender!=='function'||typeof c.setProperties!=='function')return 'leave';",
  "\n",
  "  if(globalThis[key]?.c===c)\x7bconst prior=globalThis[key];",
  "if(!prior.failed&&c.computeShowItemsToRender!==prior.wrapped)\x7brestore(prior);",
  "prior.failed=true\x7dreturn prior.failed?'disabled':'installed'\x7d\n",
  "  const s=\x7bq,c,original:c.computeShowItemsToRender,wrapped:null,timer:0,generation:0,",
  "input:null,size:0,failed:false\x7d;\n",
  "  const connected=()=>\x7btry\x7breturn q.isConnected===true&&",
  "document.querySelector('ytmusic-player-queue')===q&&q.inst===c&&q.polymerController===c\x7d",
  "catch(_)\x7breturn false\x7d\x7d;\n",
  "  const selected=a=>\x7bconst n=Number(c.selectedQueueItemIndex);",
  "return Number.isInteger(n)&&n>=0&&n<a.length?n:0\x7d;\n",
  "  const fail=()=>\x7brestore(s);s.failed=true;",
  "if(connected())try\x7bc.setProperties(\x7bitemsToRender:s.original.call(c,q.data,",
  "q.visibleItems)\x7d,true)\x7dcatch(_)\x7b\x7d\x7d;\n",
  "  const schedule=(a,g,delay)=>\x7bs.timer=setTimeout(()=>\x7b\n",
  "    if(g!==s.generation)return;\n",
  "    s.timer=0;\n",
  "    if(!connected())\x7brestore(s);if(globalThis[key]===s)delete globalThis[key];",
  "return\x7d\n",
  "    try\x7b\n",
  "      if(c.computeShowItemsToRender!==s.wrapped)\x7brestore(s);s.failed=true;return\x7d\n",
  "      if(s.input!==a||q.data!==a)\x7bcancel(s);return\x7d\n",
  "      const next=Math.min(a.length,Math.max(selected(a)+3,s.size+4));\n",
  "      if(next<=s.size)return;\n",
  "      s.size=next;c.setProperties(\x7bitemsToRender:a.slice(0,next)\x7d,true);\n",
  "      if(g===s.generation&&s.input===a&&q.data===a&&next<a.length)schedule(a,g,250);\n",
  "    \x7dcatch(_)\x7bfail()\x7d\n",
  "  \x7d,delay)\x7d;\n",
  "  s.wrapped=function(a)\x7b\n",
  "    const full=s.original.apply(this,arguments);\n",
  "    try\x7b\n",
  "      if(!Array.isArray(a)||a.length>1000||a!==q.data||full!==a||!connected())\x7bcancel(s);",
  "s.input=null;return full\x7d\n",
  "      if(s.input!==a)\x7bcancel(s);s.input=a;s.size=Math.min(a.length,Math.max(4,",
  "selected(a)+3));if(s.size<a.length)schedule(a,s.generation,1200)\x7d\n",
  "      const floor=Math.min(a.length,selected(a)+3);\n",
  "      if(s.size<floor)s.size=floor;\n",
  "      if(s.size<a.length&&!s.timer)schedule(a,s.generation,1200);\n",
  "      return a.slice(0,s.size);\n",
  "    \x7dcatch(_)\x7bfail();return full\x7d\n",
  "  \x7d;\n",
  "  c.computeShowItemsToRender=s.wrapped;globalThis[key]=s;return 'installed';\n",
  "\x7d)()\n"]

def actionPrefix : Bytes := text [
  "(async()=>\x7bif(location.origin!=='https://music.youtube.com')throw ",
  "Error('origin');const p=document.querySelector('#movie_player');if(!p)",
  "throw Error('player');"]

def actionSuffix : Bytes := text [
  "return 'ok'\x7d)()"]

/-- `snprintf` into a buffer of so many bytes, with what is in it up to the zero. -/
def printed (size : ℕ) (text : Bytes) : Bytes := text.take (size - 1)

/-- `operation`, where a volume is an `unsigned`. -/
def operation : Music.Action → Bytes
  | .play => text [
      "if(typeof p.playVideo!=='function')throw Error('play');p.playVideo();"]
  | .pause => text [
      "if(typeof p.pauseVideo!=='function')throw Error('pause');p.pauseVideo();"]
  | .rewind => text [
      "if(typeof p.pauseVideo!=='function'||typeof p.seekTo!==",
      "'function')throw Error('rewind');p.pauseVideo();p.seekTo(0,true);"]
  | .volume percent => printed 4000 (text [
      "if(typeof p.setVolume!=='function')throw Error('volume');p.setVolume("] ++
      decimal percent ++ ascii ");")
  | .next => text [
      "const q=Array.from(document.querySelectorAll('ytmusic-player-queue ",
      "ytmusic-player-queue-item'));",
      "if(q.length>1000)throw Error('queue');",
      "const selected=q.filter(x=>x.hasAttribute('selected')&&",
      "x.data?.navigationEndpoint?.watchEndpoint?.videoId===p.getVideoData()?.video_id);",
      "if(selected.length!==1)throw Error('queue');",
      "const current=selected[0].data?.navigationEndpoint?.watchEndpoint;",
      "if(!current||!Number.isInteger(current.index)||current.index<0||",
      "typeof p.getVideoData!=='function'||current.videoId!==p.getVideoData()?.video_id)throw ",
      "Error('queue');",
      "const root=selected[0].closest?.('ytmusic-player-queue');if(!root)throw Error('queue');",
      "const seeded=!(typeof current.playlistId==='string'&&current.playlistId);",
      "const items=!seeded?q:",
      "Array.from(root.querySelectorAll('#automix-contents ytmusic-player-queue-item'));",
      "if(seeded&&current.index!==0)throw Error('seed');",
      "if(items.length>1000)throw Error('queue');let next=null,index=Infinity,count=0;",
      "for(const item of items)\x7bif(seeded&&item.closest?.('#counterpart-renderer'))continue;",
      "const w=item.data?.navigationEndpoint?.watchEndpoint;",
      "const playlist=typeof current.playlistId==='string'&&current.playlistId?",
      "w?.playlistId===current.playlistId:typeof w?.playlistId==='string'&&!!w.playlistId;",
      "if(playlist&&Number.isInteger(w.index)&&w.index>current.index&&typeof w.videoId===",
      "'string'&&",
      "/^[A-Za-z0-9_-]\x7b11\x7d$/.test(w.videoId)&&typeof item.resolveCommand==='function')",
      "\x7b",
      "if(w.index<index)\x7bnext=item;index=w.index;",
      "count=1\x7delse if(seeded&&w.index===index)count++\x7d\x7d",
      "if(!next||(seeded&&count!==1))throw Error('next');",
      "next.resolveCommand(next.data.navigationEndpoint);",
      "return next.data.navigationEndpoint.watchEndpoint.videoId;"]

/-- The expression of `do_action`. -/
def actionExpression (action : Music.Action) : Bytes :=
  printed 5000 (actionPrefix ++ operation action ++ actionSuffix)

/-- What `evaluate` is called with, beside the call that only brings the page to the front. -/
inductive Own : Bytes → Prop
  | state : Own stateExpression
  | recoverEmpty : Own recoverEmpty
  | recoverStalled : Own recoverStalledPlayerUi
  | maintainQueue : Own maintainMusicQueueRendering
  | action (action : Music.Action) : Own (actionExpression action)

/-! ### What is quoted -/

/-- Nothing has to be escaped. -/
def Plain (e : Bytes) : Prop := ∀ c ∈ e, special c = false

instance (e : Bytes) : Decidable (Plain e) := List.decidableBAll (special · = false) e

theorem Plain.append {e e' : Bytes} (h : Plain e) (h' : Plain e') : Plain (e ++ e') := by
  intro c hc
  rcases List.mem_append.mp hc with hc | hc
  · exact h c hc
  · exact h' c hc

theorem Plain.printed {e : Bytes} (h : Plain e) (size : ℕ) : Plain (printed size e) :=
  fun c hc => h c (List.mem_of_mem_take hc)

theorem plain_decimal (n : ℕ) : Plain (decimal n) := by
  intro c hc
  have hdigit := decimal_isdigit n c hc
  simp only [isdigit, Bool.and_eq_true, decide_eq_true_eq, UInt8.le_iff_toNat_le,
    UInt8.reduceToNat] at hdigit
  simp only [special, Bool.or_eq_false_iff, decide_eq_false_iff_not, beq_eq_false_iff_ne, ne_eq,
    UInt8.lt_iff_toNat_lt, ← UInt8.toNat_inj, UInt8.reduceToNat]
  omega

theorem Plain.ends {e : Bytes} (h : Plain e) : endsSpecial e = false := by
  rw [endsSpecial]
  cases hlast : e.getLast? with
  | none => rfl
  | some c => exact h c (List.mem_of_getLast? hlast)

/-- Every line passes a test of its characters. -/
inductive Pass (test : List Char → Bool) : List String → Prop
  | nil : Pass test []
  | cons {cs : List Char} {lines : List String} (h : test cs = true) (hlines : Pass test lines) :
      Pass test (String.ofList cs :: lines)

def bytes (cs : List Char) : Bytes := cs.map fun c => .ofNat c.toNat

theorem text_cons (cs : List Char) (lines : List String) :
    text (String.ofList cs :: lines) = bytes cs ++ text lines := by
  rw [text, List.flatMap_cons, ascii, String.toList_ofList]
  rfl

theorem Pass.plain {lines : List String} (h : Pass (fun cs => decide (Plain (bytes cs))) lines) :
    Plain (text lines) := by
  induction h with
  | nil => exact fun c hc => absurd hc List.not_mem_nil
  | cons hline _ ih =>
    rw [text_cons]
    exact (of_decide_eq_true hline).append ih

theorem Pass.length_le {n : ℕ} {lines : List String}
    (h : Pass (fun cs => decide ((quoted (bytes cs)).length ≤ n)) lines) :
    (quoted (text lines)).length ≤ lines.length * n := by
  induction h with
  | nil => exact Nat.zero_le _
  | @cons cs lines hline _ ih =>
    have hle := of_decide_eq_true hline
    rw [text_cons, quoted, List.flatMap_append, List.length_append, List.length_cons, Nat.succ_mul]
    rw [quoted] at hle ih
    omega

theorem plain_operation (action : Music.Action) : Plain (operation action) := by
  cases action with
  | volume percent =>
    have htext : Plain (text [
      "if(typeof p.setVolume!=='function')throw Error('volume');p.setVolume("]) :=
      Pass.plain (.cons (by decide +kernel) .nil)
    exact ((htext.append (plain_decimal percent)).append (by decide)).printed 4000
  | play | pause | next | rewind =>
    apply Pass.plain
    repeat' first | exact .nil | refine .cons (by decide +kernel) ?_

theorem plain_action (action : Music.Action) : Plain (actionExpression action) := by
  have hhead : Plain actionPrefix := by
    apply Pass.plain
    repeat' first | exact .nil | refine .cons (by decide +kernel) ?_
  have hsuffix : Plain actionSuffix := Pass.plain (.cons (by decide +kernel) .nil)
  exact ((hhead.append (plain_operation action)).append hsuffix).printed 5000

/-- Short lines that are not too many are far from filling the buffer. -/
theorem Pass.not_tooLong {lines : List String}
    (h : Pass (fun cs => decide ((quoted (bytes cs)).length ≤ 100)) lines)
    (hlines : lines.length ≤ 80) : ¬OneTooLong (text lines) 8192 := by
  rintro ⟨hlength, -⟩
  have hle := h.length_le
  rw [length_quoteText] at hlength
  omega

/-- No expression of the bridge is one byte too long for the quoted text in `evaluate`. -/
theorem own_not_tooLong {e : Bytes} (h : Own e) : ¬OneTooLong e 8192 := by
  cases h with
  | action action =>
    exact fun hlong => Bool.false_ne_true ((plain_action action).ends.symm.trans hlong.2)
  | state | recoverEmpty | recoverStalled | maintainQueue =>
    refine Pass.not_tooLong ?_ (by decide)
    repeat' first | exact .nil | refine .cons (by decide +kernel) ?_

end ForgeOS.Native.Expressions
