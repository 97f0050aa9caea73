/-
Waiting for a remote daemon before a deployment.  Each step observes the host;
when an idle daemon that the app owns stands in the way, it offers to take it
over and stops it only once the offer was confirmed.  The consent is one slot,
and it names the daemon by its pid, its identity and its home joined into one
text.
-/
import Vellum.Library.GrowingLog
import Vellum.Library.Json
import Vellum.Library.StepRun

namespace Vellum.Desktop

open List Option

/-! The observation gate of a destructive operation. -/

structure DestructiveObservation where
  turnsObserved : Bool := false
  toolsObserved : Bool := false
  approvalsObserved : Bool := false
  activeTurn : Bool := false
  activeTools : Bool := false
  pendingApprovals : Bool := false

inductive DestructiveDecision where
  | allow
  | block (code : String)

def destructiveOpDecision (obs : DestructiveObservation) :
    DestructiveDecision :=
  if !obs.turnsObserved || !obs.toolsObserved || !obs.approvalsObserved then
    .block "incompleteObservation"
  else if obs.activeTurn || obs.activeTools || obs.pendingApprovals then
    .block "activeWorkInProgress"
  else .allow

/-- A boolean field, as each thread and the daemon report them. -/
def boolField (name : String) (value : Json) : Option Bool :=
  (value.get name).bind Json.asBool

def threadActive (thread : Json) : Bool :=
  boolField "active" thread == some true ||
    (thread.get "activeTurnId").any fun id => !id.isNull

def observationFromSession (session native : Option Json) :
    DestructiveObservation :=
  match session with
  | none => {}
  | some session =>
    if (session.get "observability").bind Json.asStr ≠
        some "nativeAppServer" then {}
    else
      match (session.get "threads").bind Json.asArr with
      | none => {}
      | some threads =>
        let toolsField := threads.filterMap (boolField "activeTools")
        let approvalsField :=
          threads.filterMap (boolField "pendingApprovals")
        { turnsObserved := true
          toolsObserved := toolsField.length == threads.length
          approvalsObserved := approvalsField.length == threads.length
          activeTurn := threads.any threadActive ||
            native.bind (boolField "activeTurn") == some true
          activeTools := toolsField.any id
          pendingApprovals := approvalsField.any id }

def requireIdleForDestructiveOp (session native : Option Json) :
    Except String Unit :=
  match destructiveOpDecision (observationFromSession session native) with
  | .allow => .ok ()
  | .block code => .error code

/-! The daemon a consent is about. -/

/-- The process that an observed daemon is. -/
structure DaemonProcess where
  pid : Nat
  identity : String
  home : String
deriving DecidableEq

def nonempty (text : String) : Option String :=
  if text = "" then none else some text

def daemonProcess (native : Json) : Option DaemonProcess :=
  ((native.get "daemonPid").bind Json.asU64).bind fun pid =>
    if pid = 0 then none else
      (((native.get "daemonIdentity").bind Json.asStr).bind nonempty).bind
        fun identity =>
          (((native.get "codexHome").bind Json.asStr).bind nonempty).map
            fun home => ⟨pid, identity, home⟩

namespace DaemonProcess

/-- The text a consent names the process by. -/
def joined (process : DaemonProcess) : String :=
  toString process.pid ++ ":" ++ process.identity ++ ":" ++ process.home

end DaemonProcess

def fingerprint (native : Json) : Option String :=
  (daemonProcess native).map DaemonProcess.joined

/-! The control of one deployment. -/

structure Consent where
  fingerprint : String
  token : String
  approved : Bool

structure DeploymentControl where
  cancelled : Bool := false
  consent : Option Consent := none

/-- The host as one call of `step` finds it: what an observation answers, and
what a request to stop the daemon would answer. -/
structure WaitClient where
  observe : Except String (Json × Option Json)
  stopAppOwned : Json → Except String Unit

inductive WaitStep where
  | ready
  | observing
  | waitingForIdle
  | awaitingTakeover
  | tookOver

/-- What happened on a control, in the order it happened. -/
inductive ControlEvent where
  | observed (status : Json) (sessions : Option Json)
  | offered (token : String) (native : Json)
  | confirmed (token : String)
  | cancelled
  | stopCalled (native : Json)

namespace DeploymentControl

variable (control : DeploymentControl) (client : WaitClient)

def check : Except String Unit :=
  if control.cancelled then .error "DeploymentCancelled" else .ok ()

def clearConsent : DeploymentControl :=
  { control with consent := none }

def cancel : DeploymentControl :=
  clearConsent { control with cancelled := true }

/-- Whether the slot holds a consent for this fingerprint. -/
def offers (fingerprint : String) : Bool :=
  control.consent.any fun consent => consent.fingerprint == fingerprint

def offer (fingerprint token : String) : DeploymentControl × Bool :=
  let offering :=
    if control.offers fingerprint then control
    else { control with consent := some ⟨fingerprint, token, false⟩ }
  (offering, offering.consent.any Consent.approved)

def confirm (token : String) : Except String DeploymentControl :=
  match control.check with
  | .error error => .error error
  | .ok () =>
    match control.consent.filter fun consent => consent.token == token with
    | none => .error "DeploymentConfirmationExpired"
    | some consent =>
      .ok { control with consent := some { consent with approved := true } }

/-- What a step leaves behind: the control, what happened, and its answer. -/
structure Outcome where
  control : DeploymentControl
  events : List ControlEvent := []
  answer : Except String WaitStep

/-- A refusal that only asks for another observation. -/
def transientRefusal (error : String) : Bool :=
  containsBlock "activeTurnInProgress".toList error.toList ||
    containsBlock "IdentityChanged".toList error.toList

/-- The end of a step, once the consent was consumed. -/
def stopDaemon (native : Json) : Outcome :=
  match control.check with
  | .error error => { control, answer := .error error }
  | .ok () =>
    { control
      events := [.stopCalled native]
      answer :=
        match client.stopAppOwned native with
        | .ok () => .ok .tookOver
        | .error error =>
          if transientRefusal error then .ok .waitingForIdle
          else .error error }

/-- The step for an idle daemon that is not safe to restart. -/
def takeOver (token : String) (native : Json) : Outcome :=
  if (native.get "daemonOwner").bind Json.asStr ≠ some "codexAppDirect" then
    { control, answer := .error "incompleteObservation: unknown daemon owner" }
  else
    match Desktop.fingerprint native with
    | none =>
      { control
        answer := .error "incompleteObservation: daemon identity missing" }
    | some fingerprint =>
      let fresh :=
        if control.offers fingerprint then []
        else [ControlEvent.offered token native]
      let (offering, approved) := control.offer fingerprint token
      if !approved then
        { control := offering, events := fresh
          answer := .ok .awaitingTakeover }
      else
        let stopped := stopDaemon offering.clearConsent client native
        { stopped with events := fresh ++ stopped.events }

/-- The step once the host was observed. -/
def afterObservation (token : String) (status : Json) (sessions : Option Json) :
    Outcome :=
  match status.get "nativeCodex" with
  | none => { control := control.clearConsent, answer := .ok .observing }
  | some native =>
    if native.isNull then
      { control := control.clearConsent, answer := .ok .observing }
    else if boolField "daemonRunning" native = some false then
      { control := control.clearConsent, answer := .ok .ready }
    else
      match requireIdleForDestructiveOp sessions (some native) with
      | .error code =>
        { control := control.clearConsent
          answer := .ok (if code = "incompleteObservation" then .observing
            else .waitingForIdle) }
      | .ok () =>
        if boolField "restartSafe" native = some true then
          { control := control.clearConsent, answer := .ok .ready }
        else takeOver control client token native

def step (token : String) : Outcome :=
  match control.check with
  | .error error => { control, answer := .error error }
  | .ok () =>
    match client.observe with
    | .error error => { control, answer := .error error }
    | .ok (status, sessions) =>
      match control.check with
      | .error error =>
        { control, events := [.observed status sessions]
          answer := .error error }
      | .ok () =>
        let rest := control.afterObservation client token status sessions
        { rest with events := .observed status sessions :: rest.events }

end DeploymentControl

/-- An observation at which the takeover of a process may be offered: its
daemon is that process, runs, is idle, is not safe to restart and is the
app's own. -/
structure Takeable (status : Json) (sessions : Option Json) (native : Json)
    (process : DaemonProcess) : Prop where
  reported : status.get "nativeCodex" = some native
  running : boolField "daemonRunning" native ≠ some false
  idle : requireIdleForDestructiveOp sessions (some native) = .ok ()
  notRestartSafe : boolField "restartSafe" native ≠ some true
  appOwned :
    (native.get "daemonOwner").bind Json.asStr = some "codexAppDirect"
  process_eq : daemonProcess native = some process

namespace DeploymentControl

/-- Everything a step can do to an uncancelled control. -/
inductive Stepped (control : DeploymentControl) (client : WaitClient)
    (token : String) : Outcome → Prop where
  | failed {events : List ControlEvent} {error : String}
      (hquiet : ∀ event ∈ events, ∃ status sessions,
        event = .observed status sessions) :
      Stepped control client token ⟨control, events, .error error⟩
  | cleared {status : Json} {sessions : Option Json} {answer : WaitStep} :
      Stepped control client token
        ⟨control.clearConsent, [.observed status sessions], .ok answer⟩
  | offered {status native : Json} {sessions : Option Json}
      {process : DaemonProcess} (hcancelled : control.cancelled = false)
      (hobserve : client.observe = .ok (status, sessions))
      (htakeable : Takeable status sessions native process)
      (hother : control.offers process.joined = false) :
      Stepped control client token
        ⟨{ control with consent := some ⟨process.joined, token, false⟩ },
          [.observed status sessions, .offered token native],
          .ok .awaitingTakeover⟩
  | waited {status native : Json} {sessions : Option Json}
      {process : DaemonProcess}
      (hobserve : client.observe = .ok (status, sessions))
      (htakeable : Takeable status sessions native process)
      (hsame : control.offers process.joined = true) :
      Stepped control client token
        ⟨control, [.observed status sessions], .ok .awaitingTakeover⟩
  | stopped {status native : Json} {sessions : Option Json}
      {process : DaemonProcess} {consent : Consent}
      {answer : Except String WaitStep}
      (hobserve : client.observe = .ok (status, sessions))
      (htakeable : Takeable status sessions native process)
      (hconsent : control.consent = some consent)
      (hsame : consent.fingerprint = process.joined)
      (happroved : consent.approved = true) :
      Stepped control client token
        ⟨control.clearConsent,
          [.observed status sessions, .stopCalled native], answer⟩

variable {control : DeploymentControl} {client : WaitClient} {token : String}

theorem offers_iff {fingerprint : String} :
    control.offers fingerprint = true ↔
      ∃ consent, control.consent = some consent ∧
        consent.fingerprint = fingerprint := by
  simp only [offers, Option.any_eq_true, beq_iff_eq]

theorem check_of_not_cancelled (hcancelled : control.cancelled = false) :
    control.check = .ok () := by
  rw [check, hcancelled, if_neg Bool.false_ne_true]

/-- The end of a step whose observation allows a takeover. -/
theorem stepped_takeOver {status native : Json} {sessions : Option Json}
    {process : DaemonProcess} (hcancelled : control.cancelled = false)
    (hobserve : client.observe = .ok (status, sessions))
    (htakeable : Takeable status sessions native process)
    {rest : Outcome} (hrest : takeOver control client token native = rest) :
    Stepped control client token
      { rest with events := .observed status sessions :: rest.events } := by
  have hfingerprint : Desktop.fingerprint native = some process.joined := by
    rw [Desktop.fingerprint, htakeable.process_eq, map_some]
  rw [takeOver, if_neg (not_not.mpr htakeable.appOwned), hfingerprint] at hrest
  by_cases hoffers : control.offers process.joined = true
  · obtain ⟨consent, hconsent, hsame⟩ := offers_iff.mp hoffers
    simp only [offer, hoffers, ↓reduceIte, hconsent, any_some,
      nil_append] at hrest
    by_cases happroved : consent.approved = true
    · have hcheck : control.clearConsent.check = .ok () :=
        check_of_not_cancelled hcancelled
      simp only [happroved, Bool.not_true, Bool.false_eq_true, ↓reduceIte,
        stopDaemon, hcheck] at hrest
      subst hrest
      exact .stopped hobserve htakeable hconsent hsame happroved
    · simp only [happroved, Bool.not_false, ↓reduceIte] at hrest
      subst hrest
      exact .waited hobserve htakeable hoffers
  · have hother : control.offers process.joined = false :=
      Bool.not_eq_true _ ▸ hoffers
    simp only [offer, hother, Bool.false_eq_true, ↓reduceIte, any_some,
      Bool.not_false] at hrest
    subst hrest
    exact .offered hcancelled hobserve htakeable hother

theorem stepped_afterObservation {status : Json} {sessions : Option Json}
    (hcancelled : control.cancelled = false)
    (hobserve : client.observe = .ok (status, sessions)) {rest : Outcome}
    (hrest : control.afterObservation client token status sessions = rest) :
    Stepped control client token
      { rest with events := .observed status sessions :: rest.events } := by
  unfold afterObservation at hrest
  cases hnative : status.get "nativeCodex" with
  | none =>
    rw [hnative] at hrest
    subst hrest
    exact .cleared
  | some native =>
    simp only [hnative] at hrest
    split at hrest
    · subst hrest
      exact .cleared
    · split at hrest
      · subst hrest
        exact .cleared
      · rename_i hrunning
        split at hrest
        · subst hrest
          exact .cleared
        · rename_i hidle
          split at hrest
          · subst hrest
            exact .cleared
          · rename_i hsafe
            by_cases howner :
                (native.get "daemonOwner").bind Json.asStr =
                  some "codexAppDirect"
            · cases hprocess : daemonProcess native with
              | none =>
                rw [takeOver, if_neg (not_not.mpr howner),
                  Desktop.fingerprint, hprocess, map_none] at hrest
                subst hrest
                exact .failed (by simp)
              | some process =>
                exact stepped_takeOver hcancelled hobserve
                  ⟨hnative, hrunning, hidle, hsafe, howner, hprocess⟩ hrest
            · rw [takeOver, if_pos howner] at hrest
              subst hrest
              exact .failed (by simp)

/-- A step either meets a cancelled control and fails, or does one of the
things above. -/
theorem stepped_step (control : DeploymentControl) (client : WaitClient)
    (token : String) : Stepped control client token (control.step client token) := by
  cases hcancelled : control.cancelled with
  | true =>
    rw [step, check, hcancelled, if_pos rfl]
    exact .failed (by simp)
  | false =>
    have hcheck := check_of_not_cancelled hcancelled
    rw [step]
    simp only [hcheck]
    cases hobserve : client.observe with
    | error error => exact .failed (by simp)
    | ok observed =>
      obtain ⟨status, sessions⟩ := observed
      exact stepped_afterObservation hcancelled hobserve rfl

end DeploymentControl

/-! Runs on one control. -/

/-- A call on the control.  Each is atomic: one that lands while a step is
observing comes to the same as one right before the step, which has only read
the cancellation by then and reads it again. -/
inductive ControlCall where
  | step (client : WaitClient) (token : String)
  | confirm (token : String)
  | cancel

/-- One control, what happened on it, and whether a step has failed. -/
structure ControlRun where
  control : DeploymentControl := {}
  log : List ControlEvent := []
  failed : Bool := false

namespace ControlRun

def offeredTokens (log : List ControlEvent) : List String :=
  log.filterMap fun
    | .offered token _ => some token
    | _ => none

/-- The run goes on until a step fails, and the tokens it draws are fresh. -/
def next (run : ControlRun) : ControlCall → Option ControlRun
  | .step client token =>
    if run.failed || token ∈ offeredTokens run.log then none
    else
      let outcome := run.control.step client token
      some
        { control := outcome.control
          log := run.log ++ outcome.events
          failed := !outcome.answer.isOk }
  | .confirm token =>
    if run.failed then none
    else
      match run.control.confirm token with
      | .error _ => some run
      | .ok control =>
        some { run with control, log := run.log ++ [.confirmed token] }
  | .cancel =>
    if run.failed then none
    else
      some
        { run with
          control := run.control.cancel
          log := run.log ++ [.cancelled] }

/-- What happened since a process was offered: it is the process of every
observation, and nothing was stopped. -/
def HoldsFor (process : DaemonProcess) : ControlEvent → Prop
  | .observed status sessions => ∃ native, Takeable status sessions native process
  | .stopCalled _ => False
  | .offered _ _ | .confirmed _ | .cancelled => True

/-- The log offers a token for a process, and all that happened since is about
that process.  `since` is what came behind the offer. -/
structure OfferedFor (process : DaemonProcess) (token : String)
    (log since : List ControlEvent) : Prop where
  offer : ∃ before status sessions native,
    log = before ++ .observed status sessions ::
      .offered token native :: since ∧
    Takeable status sessions native process
  holds : ∀ event ∈ since, HoldsFor process event

/-- A stop that the log before it allows: nothing was cancelled, a token was
offered for this very process and confirmed, every observation from the offer
on was of this process with a takeover due, and no stop came in between. -/
def Authorised (log : List ControlEvent) (native : Json) : Prop :=
  ControlEvent.cancelled ∉ log ∧
    ∃ process token since, daemonProcess native = some process ∧
      OfferedFor process token log since ∧ .confirmed token ∈ since

/-- The law of the log. -/
def StopAuthorised (log : List ControlEvent) : ControlEvent → Prop
  | .stopCalled native => Authorised log native
  | _ => True

/-- The process of the daemon that the host would report. -/
def observedProcess (client : WaitClient) : Option DaemonProcess :=
  match client.observe with
  | .ok (status, _) => (status.get "nativeCodex").bind daemonProcess
  | .error _ => none

/-- The daemons a token was offered for. -/
def offersOf (token : String) (log : List ControlEvent) : List Json :=
  log.filterMap fun
    | .offered other native => if other = token then some native else none
    | _ => none

/-- When the text of the consent tells the observed process from another: an
observation whose text is that of the consent is of the process the consent
was offered for. -/
def TellsApart (run : ControlRun) : ControlCall → Prop
  | .step client _ =>
    ∀ process ∈ observedProcess client, ∀ consent ∈ run.control.consent,
      consent.fingerprint = process.joined →
      ∀ native ∈ offersOf consent.token run.log,
        daemonProcess native = some process
  | .confirm _ | .cancel => True

instance (run : ControlRun) : (call : ControlCall) →
    Decidable (TellsApart run call)
  | .step client _ => by unfold TellsApart; infer_instance
  | .confirm _ | .cancel => isTrue trivial

/-- What a run keeps. -/
structure Inv (run : ControlRun) : Prop where
  stops : Throughout StopAuthorised run.log
  cancelled : ControlEvent.cancelled ∈ run.log → run.control.cancelled = true
  cleared : run.control.cancelled = true → run.control.consent = none
  consent : run.failed = false → ∀ consent,
    run.control.consent = some consent →
      ∃ process since, consent.fingerprint = process.joined ∧
        OfferedFor process consent.token run.log since ∧
        (consent.approved = true → .confirmed consent.token ∈ since)

variable {process : DaemonProcess} {token : String}
  {log since : List ControlEvent}

theorem OfferedFor.append (hoffered : OfferedFor process token log since)
    {events : List ControlEvent}
    (hevents : ∀ event ∈ events, HoldsFor process event) :
    OfferedFor process token (log ++ events) (since ++ events) := by
  obtain ⟨before, status, sessions, native, hlog, htakeable⟩ := hoffered.offer
  refine ⟨⟨before, status, sessions, native, ?_, htakeable⟩, ?_⟩
  · rw [hlog, append_assoc, cons_append, cons_append]
  · intro event hevent
    rcases mem_append.mp hevent with hold | hnew
    · exact hoffered.holds event hold
    · exact hevents event hnew

theorem OfferedFor.mem (hoffered : OfferedFor process token log since) :
    ∃ native ∈ offersOf token log, daemonProcess native = some process := by
  obtain ⟨before, status, sessions, native, hlog, htakeable⟩ := hoffered.offer
  refine ⟨native, ?_, htakeable.process_eq⟩
  rw [offersOf, mem_filterMap]
  exact ⟨.offered token native, by simp [hlog], if_pos rfl⟩

theorem inv_start : Inv {} where
  stops := Throughout.nil
  cancelled := by simp
  cleared := fun _ => rfl
  consent := by
    intro _ consent hconsent
    cases hconsent

variable {run after : ControlRun}

/-- An observation at which the consent's text is met is of the process that
the consent was offered for. -/
theorem offeredFor_of_tellsApart {client : WaitClient} {fresh : String}
    {status native : Json} {sessions : Option Json} {consent : Consent}
    (hinv : Inv run) (hgoing : run.failed = false)
    (hapart : TellsApart run (.step client fresh))
    (hobserve : client.observe = .ok (status, sessions))
    (htakeable : Takeable status sessions native process)
    (hconsent : run.control.consent = some consent)
    (hsame : consent.fingerprint = process.joined) :
    ∃ since, OfferedFor process consent.token run.log since ∧
      (consent.approved = true → .confirmed consent.token ∈ since) := by
  obtain ⟨first, since, _, hoffered, hconfirmed⟩ :=
    hinv.consent hgoing consent hconsent
  obtain ⟨offered, hmem, hfirst⟩ := hoffered.mem
  have hobserved : observedProcess client = some process := by
    rw [observedProcess, hobserve]
    exact bind_eq_some_iff.mpr
      ⟨native, htakeable.reported, htakeable.process_eq⟩
  have hprocess : daemonProcess offered = some process :=
    hapart process hobserved consent hconsent hsame offered hmem
  have heq : first = process := some.inj (hfirst.symm.trans hprocess)
  subst heq
  exact ⟨since, hoffered, hconfirmed⟩

theorem Inv.failed {events : List ControlEvent} (hinv : Inv run)
    (hquiet : ∀ event ∈ events, ∃ status sessions,
      event = .observed status sessions) :
    Inv ⟨run.control, run.log ++ events, true⟩ := by
  refine ⟨hinv.stops.append_of_free ?_, ?_, hinv.cleared, ?_⟩
  · intro before event hevent
    obtain ⟨status, sessions, rfl⟩ := hquiet event hevent
    trivial
  · intro hmem
    rcases mem_append.mp hmem with hold | hnew
    · exact hinv.cancelled hold
    · obtain ⟨status, sessions, hevent⟩ := hquiet _ hnew
      cases hevent
  · intro hfailed
    cases hfailed

/-- Emptying the slot keeps the invariant, whatever was stopped or seen. -/
theorem Inv.clear {events : List ControlEvent} {failed : Bool} (hinv : Inv run)
    (hstops : Throughout StopAuthorised (run.log ++ events))
    (hevents : ControlEvent.cancelled ∉ events) :
    Inv ⟨run.control.clearConsent, run.log ++ events, failed⟩ := by
  refine ⟨hstops, ?_, fun _ => rfl, ?_⟩
  · intro hmem
    rcases mem_append.mp hmem with hold | hnew
    · exact hinv.cancelled hold
    · exact absurd hnew hevents
  · intro _ consent hconsent
    cases hconsent

/-- A stop after a confirmed offer for the observed process. -/
theorem OfferedFor.authorised {status native : Json} {sessions : Option Json}
    (hoffered : OfferedFor process token log since)
    (hconfirmed : .confirmed token ∈ since)
    (hcancelled : ControlEvent.cancelled ∉ log)
    (htakeable : Takeable status sessions native process) :
    Authorised (log ++ [.observed status sessions]) native := by
  refine ⟨by simpa using hcancelled, process, token,
    since ++ [.observed status sessions], htakeable.process_eq,
    hoffered.append ?_, mem_append_left _ hconfirmed⟩
  intro event hevent
  rw [mem_singleton.mp hevent]
  exact ⟨native, htakeable⟩

theorem Inv.step {client : WaitClient} {fresh : String} (hinv : Inv run)
    (hgoing : run.failed = false)
    (hapart : TellsApart run (.step client fresh))
    {outcome : DeploymentControl.Outcome}
    (hstepped : DeploymentControl.Stepped run.control client fresh outcome) :
    Inv ⟨outcome.control, run.log ++ outcome.events,
      !outcome.answer.isOk⟩ := by
  cases hstepped with
  | failed hquiet => exact hinv.failed hquiet
  | @cleared status sessions =>
    have hobserved : StopAuthorised run.log (.observed status sessions) :=
      trivial
    exact hinv.clear (hinv.stops.snoc hobserved) (by simp)
  | @offered status native sessions process hcancelled hobserve htakeable
      hother =>
      refine ⟨hinv.stops.append_of_free ?_, ?_, ?_, ?_⟩
      · intro before event hevent
        rcases mem_pair.mp hevent with rfl | rfl <;> trivial
      · intro hmem
        exact hinv.cancelled (by simpa using hmem)
      · intro hcancel
        exact absurd hcancel (by simp [hcancelled])
      · intro _ consent hconsent
        cases hconsent
        refine ⟨process, [], rfl,
          ⟨⟨run.log, status, sessions, native, rfl, htakeable⟩, ?_⟩, ?_⟩
        · intro event hevent
          cases hevent
        · intro happroved
          cases happroved
  | @waited status native sessions process hobserve htakeable hsame =>
    have hobserved : StopAuthorised run.log (.observed status sessions) :=
      trivial
    refine ⟨hinv.stops.snoc hobserved, ?_, hinv.cleared, ?_⟩
    · intro hmem
      exact hinv.cancelled (by simpa using hmem)
    · intro _ consent hconsent
      have hjoined : consent.fingerprint = process.joined := by
        obtain ⟨held, hheld, hjoined⟩ := DeploymentControl.offers_iff.mp hsame
        rw [some.inj (hconsent.symm.trans hheld)]
        exact hjoined
      obtain ⟨since, hoffered, hconfirmed⟩ :=
        offeredFor_of_tellsApart hinv hgoing hapart hobserve htakeable
          hconsent hjoined
      refine ⟨process, since ++ [.observed status sessions], hjoined,
        hoffered.append ?_,
        fun happroved => mem_append_left _ (hconfirmed happroved)⟩
      intro event hevent
      rw [mem_singleton.mp hevent]
      exact ⟨native, htakeable⟩
  | @stopped status native sessions process consent answer hobserve htakeable
      hconsent hsame happroved =>
      obtain ⟨since, hoffered, hconfirmed⟩ :=
        offeredFor_of_tellsApart hinv hgoing hapart hobserve htakeable
          hconsent hsame
      have hcancelled : ControlEvent.cancelled ∉ run.log := by
        intro hmem
        have hnone := hinv.cleared (hinv.cancelled hmem)
        rw [hconsent] at hnone
        cases hnone
      have hobserved : StopAuthorised run.log (.observed status sessions) :=
        trivial
      refine hinv.clear ?_ (by simp)
      rw [append_cons]
      exact (hinv.stops.snoc hobserved).snoc
        (hoffered.authorised (hconfirmed happroved) hcancelled htakeable)

theorem Inv.confirm {control : DeploymentControl} (hinv : Inv run)
    (hconfirm : run.control.confirm token = .ok control) :
    Inv { run with control, log := run.log ++ [.confirmed token] } := by
  unfold DeploymentControl.confirm at hconfirm
  split at hconfirm
  · cases hconfirm
  · split at hconfirm
    · cases hconfirm
    · rename_i held hfilter
      obtain ⟨hheld, htoken⟩ := filter_eq_some_iff.mp hfilter
      have htoken : held.token = token := beq_iff_eq.mp htoken
      cases hconfirm
      have hlaw : StopAuthorised run.log (.confirmed token) := trivial
      refine ⟨hinv.stops.snoc hlaw, ?_, ?_, ?_⟩
      · intro hmem
        exact hinv.cancelled (by simpa using hmem)
      · intro hcancelled
        have hnone := hinv.cleared hcancelled
        rw [hheld] at hnone
        cases hnone
      · intro hgoing consent hconsent
        cases hconsent
        obtain ⟨process, since, hjoined, hoffered, _⟩ :=
          hinv.consent hgoing held hheld
        refine ⟨process, since ++ [.confirmed token], hjoined,
          hoffered.append ?_, ?_⟩
        · intro event hevent
          rw [mem_singleton.mp hevent]
          trivial
        · intro _
          simp [htoken]

theorem Inv.cancel (hinv : Inv run) :
    Inv { run with
      control := run.control.cancel
      log := run.log ++ [.cancelled] } := by
  have hlaw : StopAuthorised run.log .cancelled := trivial
  refine ⟨hinv.stops.snoc hlaw, fun _ => rfl, fun _ => rfl, ?_⟩
  intro _ consent hconsent
  cases hconsent

theorem Inv.next {call : ControlCall} (hinv : Inv run)
    (hapart : TellsApart run call) (hnext : run.next call = some after) :
    Inv after := by
  cases call with
  | step client fresh =>
    rw [ControlRun.next] at hnext
    split at hnext
    · cases hnext
    · rename_i hgoing
      rw [Bool.not_eq_true, Bool.or_eq_false_iff] at hgoing
      cases hnext
      exact hinv.step hgoing.1 hapart
        (DeploymentControl.stepped_step run.control client fresh)
  | confirm token =>
    rw [ControlRun.next] at hnext
    split at hnext
    · cases hnext
    · split at hnext
      · cases hnext
        exact hinv
      · rename_i hconfirm
        cases hnext
        exact hinv.confirm hconfirm
  | cancel =>
    rw [ControlRun.next] at hnext
    split at hnext
    · cases hnext
    · cases hnext
      exact hinv.cancel

/-- In a run that never meets another process under the text of its consent,
each stop was confirmed for the very process it stops, under an offer that
held without a break and that no earlier stop used. -/
theorem stops_only_what_was_confirmed {calls : List ControlCall}
    (hrun : GuardedRun ControlRun.next TellsApart {} calls run) :
    ∀ before native rest, run.log = before ++ .stopCalled native :: rest →
      Authorised before native := by
  have hinv : Inv run :=
    hrun.invariant inv_start fun _ _ _ hinv hapart hnext =>
      hinv.next hapart hnext
  intro before native rest hlog
  exact hinv.stops before (.stopCalled native) rest hlog

/-- An idle host whose daemon has this pid, identity and home. -/
def idleHost (pid : Nat) (identity home : String) : WaitClient where
  observe := .ok
    (.obj [("nativeCodex", .obj
        [("daemonRunning", .bool true), ("daemonOwner", .str "codexAppDirect"),
          ("restartSafe", .bool false), ("daemonPid", .nat pid),
          ("daemonIdentity", .str identity), ("codexHome", .str home)])],
      some (.obj
        [("observability", .str "nativeAppServer"),
          ("threads", .arr [.obj
            [("active", .bool false), ("activeTools", .bool false),
              ("pendingApprovals", .bool false)]])]))
  stopAppOwned _ := .ok ()

/-- A takeover: the offer, its confirmation and the stop. -/
def takeoverCalls (offered stopped : WaitClient) : List ControlCall :=
  [.step offered "t1", .confirm "t1", .step stopped "t2"]

/-- The daemon of the tests, and one whose text is the same. -/
def testHost : WaitClient := idleHost 42 "boot:start:42" "/home/test/.codex"

def lookalikeHost : WaitClient :=
  idleHost 42 "boot:start" "42:/home/test/.codex"

theorem confirmed_takeover_is_authorised :
    ∃ run, GuardedRun ControlRun.next TellsApart {}
        (takeoverCalls testHost testHost) run ∧
      (∃ before native rest, run.log = before ++ .stopCalled native :: rest) ∧
      ∀ before native rest, run.log = before ++ .stopCalled native :: rest →
        Authorised before native := by
  obtain ⟨run, hchecked, hstop⟩ : ∃ run, runGuarded ControlRun.next
      (fun run call => decide (TellsApart run call)) {}
      (takeoverCalls testHost testHost) = some run ∧
      ∃ before native rest, run.log = before ++ .stopCalled native :: rest :=
    ⟨_, rfl, [_, _, _, _], _, [], rfl⟩
  have hrun : GuardedRun ControlRun.next TellsApart {}
      (takeoverCalls testHost testHost) run :=
    guardedRun_of_runGuarded (fun _ _ hcheck => of_decide_eq_true hcheck)
      hchecked
  exact ⟨run, hrun, hstop, stops_only_what_was_confirmed hrun⟩

/-- The two daemons are different processes, yet a consent for the one stops
the other. -/
theorem consent_stops_another_process :
    ∃ run, runActions ControlRun.next {}
        (takeoverCalls testHost lookalikeHost) = some run ∧
      ∃ before native rest, run.log = before ++ .stopCalled native :: rest ∧
        ¬ Authorised before native := by
  refine ⟨_, rfl, [_, _, _, _], _, [], rfl, ?_⟩
  rintro ⟨-, process, token, since, hprocess, hoffered, -⟩
  obtain ⟨offered, hmem, hsame⟩ := hoffered.mem
  by_cases htoken : "t1" = token
  · subst htoken
    rw [mem_singleton.mp hmem, ← hprocess] at hsame
    exact absurd hsame (by decide)
  · rw [offersOf] at hmem
    simp [htoken] at hmem

end ControlRun

end Vellum.Desktop
