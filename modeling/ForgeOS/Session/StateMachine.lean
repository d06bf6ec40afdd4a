import ForgeOS.Library.Journal
import ForgeOS.Models

/-! The table of allowed transitions of a session. -/

namespace ForgeOS.Session

open ForgeOS.Library.Journal

/-- `ALLOWED_TRANSITIONS` -/
def allowedTransitions : SessionStateName → List SessionStateName
  | .idle => [.deviceAttached, .intake, .discover]
  | .deviceAttached => [.intake, .accessEnablement, .discover, .blocked]
  | .intake => [.accessEnablement, .discover, .blocked]
  | .accessEnablement => [.deepScan, .questionGate, .blocked]
  | .discover => [.deepScan, .assess, .profileSynthesis, .blocked]
  | .deepScan => [.profileSynthesis, .assess, .blocked]
  | .profileSynthesis => [.assess, .matchMaster, .blocked]
  | .matchMaster => [.assess, .recommend, .pathSelect, .blocked]
  | .assess => [.recommend, .backupPlan, .pathSelect, .blockerClassify, .blocked]
  | .recommend => [.backupPlan, .pathSelect, .blocked]
  | .backupPlan => [.backupReady, .unlockPrep, .pathSelect, .blocked]
  | .backupReady => [.previewBuild, .flashPrep, .buildGeneric, .buildDevice, .iterate, .blocked]
  | .unlockPrep => [.unlock, .blocked]
  | .unlock => [.baselineCapture, .blocked]
  | .baselineCapture => [.pathSelect, .blocked]
  | .pathSelect => [.blockerClassify, .buildGeneric, .buildDevice, .blocked]
  | .blockerClassify =>
    [.remediationDecide, .codegenTask, .questionGate, .buildGeneric, .buildDevice, .iterate,
      .blocked]
  | .remediationDecide =>
    [.taskCreate, .questionGate, .connectivityValidate, .securityValidate, .blocked]
  | .taskCreate => [.codegenWrite, .questionGate, .blocked]
  | .codegenTask => [.codegenWrite, .patchApply, .questionGate, .blocked]
  | .codegenWrite => [.patchApply, .questionGate, .blocked]
  | .patchApply => [.executeArtifact, .questionGate, .blocked]
  | .executeArtifact => [.inspectResult, .questionGate, .blocked]
  | .inspectResult =>
    [.blockerClassify, .connectivityValidate, .securityValidate, .questionGate, .blocked]
  | .executeStep => [.connectivityValidate, .securityValidate, .iterate, .questionGate, .blocked]
  | .connectivityValidate => [.iterate, .questionGate, .blocked]
  | .securityValidate => [.iterate, .questionGate, .blocked]
  | .iterate => [.blockerClassify, .pathSelect, .deepScan, .buildGeneric, .buildDevice, .blocked]
  | .questionGate => [.executeStep, .flashPrep, .blockerClassify, .backupReady, .blocked]
  | .buildGeneric => [.signImages, .blocked]
  | .buildDevice => [.signImages, .blocked]
  | .previewBuild => [.previewReview, .interactiveVerify, .blocked]
  | .previewReview => [.interactiveVerify, .blocked]
  | .interactiveVerify => [.installApproval, .blocked]
  | .signImages => [.flashPrep, .blocked]
  | .flashPrep => [.installApproval, .flash, .blocked]
  | .installApproval => [.flash, .blocked]
  | .flash => [.bootstrapDevice, .postInstallVerify, .restore, .blocked]
  | .bootstrapDevice => [.bringup, .blocked]
  | .bringup => [.harden, .blocked]
  | .harden => [.validate, .blocked]
  | .validate => [.postInstallVerify, .promote, .restore, .blocked]
  | .postInstallVerify => [.complete, .restore, .blocked]
  | .complete => []
  | .promote => []
  | .restore => [.assess, .blocked]
  | .blocked => [.assess, .blockerClassify]

/-- `is_transition_allowed` -/
def isTransitionAllowed (current target : SessionStateName) : Bool :=
  target ∈ allowedTransitions current

end ForgeOS.Session
