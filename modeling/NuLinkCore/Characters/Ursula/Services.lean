import Mathlib.Tactic

/-!
# The services of an Ursula

An Ursula runs four looping tasks: the availability check, the learning loop, the
work tracker and the bonded tracker.  {lit}`stop` stops them one after the other, and an
{lit}`AttributeError` on the way, the mark of a partially initialised character, ends it
early without being raised.  Stopping the learning loop also uses the discovery
canceller, which asserts that it is used once, while the deferred of a learning
round stays where it is.

Main results:

- Theorem {lit}`UrsulaServices.step_coherent`: the invariant {lit}`UrsulaServices.Coherent` of one
  operation.
- Theorem {lit}`UrsulaServices.stopsCleanly_iff`: when a stop of a reachable state returns with
  everything stopped.
- Theorem {lit}`UrsulaServices.stop_spent`: after a stop that met a learning round every later
  one raises.
-/

namespace NuLink

/-- The attribute {lit}`_learning_deferred`. -/
inductive LearningDeferred where
  | unset
  | deferred
  | relax
deriving DecidableEq, Repr

/-- What {lit}`stop` may raise. -/
inductive StopError where
  | assertionError
  | reactorNotRunning
deriving DecidableEq, Repr

/-- Which of the looping tasks of an Ursula are running, and what stopping them reads.  A tracker
is {lit}`none` where the attribute is missing, {lit}`stopNow` is the flag of the discovery
canceller. -/
structure UrsulaServices where
  federatedOnly : Bool
  availabilityTracker : Bool
  learningTask : Bool
  learningDeferred : LearningDeferred
  stopNow : Bool
  workTracker : Option Bool
  operatorBondedTracker : Option Bool
  reactorStopped : Bool
deriving DecidableEq, Repr

namespace UrsulaServices

/-- A constructed Ursula; {lit}`operatorReady` says whether {lit}`Operator.__init__` succeeded, which
makes the work tracker. -/
def new (federatedOnly operatorReady : Bool) : UrsulaServices where
  federatedOnly := federatedOnly
  availabilityTracker := false
  learningTask := false
  learningDeferred := .unset
  stopNow := false
  workTracker := if federatedOnly || !operatorReady then none else some false
  operatorBondedTracker := if federatedOnly then none else some false
  reactorStopped := true

/-! ## Stopping -/

/-- {lit}`AvailabilityTracker.stop`. -/
def stopAvailability (services : UrsulaServices) : UrsulaServices :=
  { services with availabilityTracker := false }

/-- {lit}`Learner.stop_learning_loop`. -/
def stopLearningLoop (services : UrsulaServices) : UrsulaServices × Option StopError :=
  let stopped := { services with learningTask := false }
  if services.learningDeferred = .relax then (stopped, some .assertionError)
  else if services.learningDeferred = .unset then (stopped, none)
  -- The discovery canceller.
  else if services.stopNow then (stopped, some .assertionError)
  else ({ stopped with stopNow := true }, none)

/-- The end of the part of {lit}`Ursula.stop` under {lit}`suppress(AttributeError)`: a missing
tracker ends it early. -/
def stopTrackers (services : UrsulaServices) (haltOperatorBondedTracker : Bool) :
    UrsulaServices :=
  if services.federatedOnly then services
  else
    match services.workTracker with
    | none => services
    | some _ =>
        { services with
          workTracker := some false
          operatorBondedTracker :=
            if haltOperatorBondedTracker then services.operatorBondedTracker.map fun _ => false
            else services.operatorBondedTracker }

/-- {lit}`Ursula.stop`. -/
def stop (services : UrsulaServices) (haltReactor haltOperatorBondedTracker : Bool) :
    UrsulaServices × Option StopError :=
  match services.stopAvailability.stopLearningLoop with
  | (stopped, some error) => (stopped, some error)
  | (stopped, none) =>
      let halted := stopped.stopTrackers haltOperatorBondedTracker
      if haltReactor then
        if halted.reactorStopped then (halted, some .reactorNotRunning)
        else ({ halted with reactorStopped := true }, none)
      else (halted, none)

/-! ## Runs -/

/-- What starts a service, what happens to it while it runs, and what ends it other than
{lit}`stop`. -/
inductive ServiceOp where
  /-- {lit}`start_learning_loop`; {lit}`learns` says whether the round before an immediate start
  succeeds. -/
  | startLearningLoop (now learns : Bool)
  | learningRound
  | learnAboutNodesNow (force : Bool)
  | learningFails
  | startAvailability
  | availabilityFails
  | startWork
  | workFails
  | startReactor
  | stopReactor

/-- One event of a service. -/
def serviceStep (services : UrsulaServices) : ServiceOp → UrsulaServices
  | .startLearningLoop now learns =>
      if services.learningTask then services
      else if now then
        if learns then { services with learningTask := true, learningDeferred := .deferred }
        else services
      else { services with learningTask := true }
  | .learningRound =>
      if services.learningTask then { services with learningDeferred := .deferred } else services
  | .learnAboutNodesNow force =>
      if services.learningTask then services
      else if force then { services with learningTask := true, learningDeferred := .deferred }
      else services
  | .learningFails => { services with learningTask := false }
  | .startAvailability => { services with availabilityTracker := true }
  | .availabilityFails => { services with availabilityTracker := false }
  | .startWork => { services with workTracker := services.workTracker.map fun _ => true }
  | .workFails => { services with workTracker := services.workTracker.map fun _ => false }
  | .startReactor => { services with reactorStopped := false }
  | .stopReactor => { services with reactorStopped := true }

/-- The bonded tracker is started by {lit}`Ursula.run`, which nobody calls on a character whose
constructor raised. -/
def startBondedTracker (services : UrsulaServices) : UrsulaServices :=
  if services.workTracker.isSome then
    { services with
      operatorBondedTracker := services.operatorBondedTracker.map fun _ => true }
  else services

/-- The operations of a run. -/
inductive Op where
  | service (op : ServiceOp)
  | startBondedTracker
  | stopLearningLoop
  | stop (haltReactor haltOperatorBondedTracker : Bool)

/-- Perform one operation. -/
def step (services : UrsulaServices) : Op → UrsulaServices
  | .service op => services.serviceStep op
  | .startBondedTracker => services.startBondedTracker
  | .stopLearningLoop => services.stopLearningLoop.1
  | .stop haltReactor haltOperatorBondedTracker =>
      (services.stop haltReactor haltOperatorBondedTracker).1

/-- Perform a sequence of operations. -/
def run (services : UrsulaServices) (ops : List Op) : UrsulaServices := ops.foldl step services

/-- The learning deferred is never relaxed, a federated node has no trackers, and the bonded
tracker of a partially initialised character is not running. -/
structure Coherent (services : UrsulaServices) : Prop where
  not_relax : services.learningDeferred ≠ .relax
  federated_none : services.federatedOnly = true →
    services.workTracker = none ∧ services.operatorBondedTracker = none
  partial_stopped : services.workTracker = none → services.operatorBondedTracker ≠ some true

theorem new_coherent (federatedOnly operatorReady : Bool) :
    (new federatedOnly operatorReady).Coherent where
  not_relax := by simp [new]
  federated_none := by
    intro hfederated
    have hmode : federatedOnly = true := hfederated
    simp [new, hmode]
  partial_stopped := by
    intro _
    cases federatedOnly <;> simp [new]

/-- The operations that leave the trackers alone and do not relax the learning deferred. -/
theorem Coherent.congr {services services' : UrsulaServices} (h : services.Coherent)
    (hmode : services'.federatedOnly = services.federatedOnly)
    (hwork : services'.workTracker = services.workTracker)
    (hbonded : services'.operatorBondedTracker = services.operatorBondedTracker)
    (hdeferred : services'.learningDeferred ≠ .relax) : services'.Coherent where
  not_relax := hdeferred
  federated_none := by
    rw [hmode, hwork, hbonded]
    exact h.federated_none
  partial_stopped := by
    rw [hwork, hbonded]
    exact h.partial_stopped

/-- Starting and failing services keeps the invariant. -/
theorem serviceStep_coherent {services : UrsulaServices} (h : services.Coherent)
    (op : ServiceOp) : (services.serviceStep op).Coherent := by
  have hmapped : ∀ running : Bool, Coherent
      { services with workTracker := services.workTracker.map fun _ => running } := by
    intro running
    refine ⟨h.not_relax, ?_, ?_⟩
    · intro hfederated
      simp [h.federated_none hfederated]
    · intro hnone
      exact h.partial_stopped (by simpa using hnone)
  cases op with
  | startLearningLoop now learns =>
      simp only [serviceStep]
      split_ifs
      · exact h
      · exact h.congr rfl rfl rfl (by simp)
      · exact h
      · exact h.congr rfl rfl rfl h.not_relax
  | learningRound =>
      simp only [serviceStep]
      split_ifs
      · exact h.congr rfl rfl rfl (by simp)
      · exact h
  | learnAboutNodesNow force =>
      simp only [serviceStep]
      split_ifs
      · exact h
      · exact h.congr rfl rfl rfl (by simp)
      · exact h
  | learningFails => exact h.congr rfl rfl rfl h.not_relax
  | startAvailability => exact h.congr rfl rfl rfl h.not_relax
  | availabilityFails => exact h.congr rfl rfl rfl h.not_relax
  | startWork => exact hmapped true
  | workFails => exact hmapped false
  | startReactor => exact h.congr rfl rfl rfl h.not_relax
  | stopReactor => exact h.congr rfl rfl rfl h.not_relax

/-! ## What a stop does -/

/-- The discovery canceller can be used: there is no learning round to cancel, or it was not
used before. -/
def CanCancel (services : UrsulaServices) : Prop :=
  services.learningDeferred = .unset ∨ services.stopNow = false

instance (services : UrsulaServices) : Decidable services.CanCancel :=
  inferInstanceAs (Decidable (_ ∨ _))

/-- Everything that a stop is to stop is not running. -/
structure AllStopped (services : UrsulaServices) (haltOperatorBondedTracker : Bool) : Prop where
  availability : services.availabilityTracker = false
  learning : services.learningTask = false
  work : services.workTracker ≠ some true
  bonded : haltOperatorBondedTracker = true → services.operatorBondedTracker ≠ some true

/-- Stopping the learning loop uses the canceller when there is a learning round, and raises when
the canceller is spent. -/
theorem stopLearningLoop_eq {services : UrsulaServices}
    (hrelax : services.learningDeferred ≠ .relax) :
    services.stopLearningLoop =
      if services.CanCancel then
        ({ services with
            learningTask := false
            stopNow := services.stopNow || decide (services.learningDeferred ≠ .unset) }, none)
      else ({ services with learningTask := false }, some .assertionError) := by
  unfold stopLearningLoop
  rw [if_neg hrelax]
  by_cases hunset : services.learningDeferred = .unset
  · have hcancel : services.CanCancel := Or.inl hunset
    rw [if_pos hunset, if_pos hcancel]
    simp [hunset]
  · rw [if_neg hunset]
    by_cases hused : services.stopNow = true
    · have hspent : ¬ services.CanCancel := by
        rintro (h | h)
        · exact hunset h
        · rw [hused] at h
          cases h
      rw [if_pos hused, if_neg hspent]
    · have hcancel : services.CanCancel := Or.inr (by simpa using hused)
      rw [if_neg hused, if_pos hcancel]
      simp [hunset]

/-- After the trackers were stopped none of them is running. -/
theorem stopTrackers_stopped {services : UrsulaServices} (h : services.Coherent) (halt : Bool) :
    (services.stopTrackers halt).workTracker ≠ some true ∧
      (halt = true → (services.stopTrackers halt).operatorBondedTracker ≠ some true) := by
  unfold stopTrackers
  by_cases hfederated : services.federatedOnly = true
  · rcases h.federated_none hfederated with ⟨hwork, hbonded⟩
    simp [hfederated, hwork, hbonded]
  · rw [if_neg hfederated]
    cases hwork : services.workTracker with
    | none => exact ⟨by simp [hwork], fun _ => h.partial_stopped hwork⟩
    | some running =>
        refine ⟨by simp, ?_⟩
        rintro rfl
        simp

/-- Stopping the trackers leaves everything else alone. -/
theorem stopTrackers_frame (services : UrsulaServices) (halt : Bool) :
    ∃ work bonded, services.stopTrackers halt =
        { services with workTracker := work, operatorBondedTracker := bonded } ∧
      (work = none ↔ services.workTracker = none) ∧
      (bonded = some true → services.operatorBondedTracker = some true) ∧
      (services.operatorBondedTracker = none → bonded = none) := by
  unfold stopTrackers
  by_cases hfederated : services.federatedOnly = true
  · rw [if_pos hfederated]
    exact ⟨_, _, rfl, Iff.rfl, id, id⟩
  · rw [if_neg hfederated]
    cases hwork : services.workTracker with
    | none => exact ⟨_, _, rfl, by simp [hwork], id, id⟩
    | some running =>
        refine ⟨_, _, rfl, by simp, ?_, ?_⟩
        · cases halt <;> simp
        · intro hnone
          cases halt <;> simp [hnone]

/-- Stopping the trackers keeps the invariant. -/
theorem stopTrackers_coherent {services : UrsulaServices} (h : services.Coherent) (halt : Bool) :
    (services.stopTrackers halt).Coherent := by
  rcases stopTrackers_frame services halt with ⟨work, bonded, heq, hwork, hrunning, hmissing⟩
  rw [heq]
  refine ⟨h.not_relax, ?_, ?_⟩
  · intro hfederated
    rcases h.federated_none hfederated with ⟨hnowork, hnobonded⟩
    exact ⟨hwork.mpr hnowork, hmissing hnobonded⟩
  · intro hnone hbonded
    exact h.partial_stopped (hwork.mp hnone) (hrunning hbonded)

/-- With a canceller that can be used, a stop stops everything; it raises only when it is to stop
a reactor that is not running. -/
theorem stop_of_canCancel {services : UrsulaServices} (h : services.Coherent)
    (hcancel : services.CanCancel) (haltReactor halt : Bool) :
    (services.stop haltReactor halt).1.AllStopped halt ∧
      ((services.stop haltReactor halt).2 = none ↔
        (haltReactor = true → services.reactorStopped = false)) := by
  let stopped : UrsulaServices :=
    { services with
      availabilityTracker := false
      learningTask := false
      stopNow := services.stopNow || decide (services.learningDeferred ≠ .unset) }
  have hstopped : stopped.Coherent := h.congr rfl rfl rfl h.not_relax
  have hlearning : services.stopAvailability.stopLearningLoop = (stopped, none) := by
    rw [@stopLearningLoop_eq services.stopAvailability h.not_relax,
      if_pos (show services.stopAvailability.CanCancel from hcancel)]
    rfl
  rcases stopTrackers_stopped hstopped halt with ⟨hwork, hbonded⟩
  rcases stopTrackers_frame stopped halt with ⟨work, bonded, heq, -⟩
  have hall : (stopped.stopTrackers halt).AllStopped halt :=
    ⟨by rw [heq], by rw [heq], hwork, hbonded⟩
  have hreactor : (stopped.stopTrackers halt).reactorStopped = services.reactorStopped := by
    rw [heq]
  unfold stop
  rw [hlearning]
  cases haltReactor with
  | false => exact ⟨hall, by simp⟩
  | true =>
      simp only [if_true, hreactor]
      cases hrunning : services.reactorStopped with
      | true => exact ⟨hall, by simp⟩
      | false => exact ⟨⟨hall.availability, hall.learning, hall.work, hall.bonded⟩, by simp⟩

/-- With a spent canceller, a stop raises before it stops the trackers. -/
theorem stop_of_not_canCancel {services : UrsulaServices} (h : services.Coherent)
    (hcancel : ¬ services.CanCancel) (haltReactor halt : Bool) :
    services.stop haltReactor halt =
      ({ services with availabilityTracker := false, learningTask := false },
        some .assertionError) := by
  have hlearning : services.stopAvailability.stopLearningLoop =
      ({ services with availabilityTracker := false, learningTask := false },
        some .assertionError) := by
    rw [@stopLearningLoop_eq services.stopAvailability h.not_relax,
      if_neg (show ¬ services.stopAvailability.CanCancel from hcancel)]
    rfl
  unfold stop
  rw [hlearning]

/-! ## The invariant along a run -/

theorem stopLearningLoop_coherent {services : UrsulaServices} (h : services.Coherent) :
    services.stopLearningLoop.1.Coherent := by
  rw [stopLearningLoop_eq h.not_relax]
  split
  · exact h.congr rfl rfl rfl h.not_relax
  · exact h.congr rfl rfl rfl h.not_relax

theorem stop_coherent {services : UrsulaServices} (h : services.Coherent)
    (haltReactor halt : Bool) : (services.stop haltReactor halt).1.Coherent := by
  have hlearning : services.stopAvailability.stopLearningLoop.1.Coherent :=
    stopLearningLoop_coherent (h.congr rfl rfl rfl h.not_relax)
  unfold stop
  split
  · rename_i stopped error heq
    rw [heq] at hlearning
    exact hlearning
  · rename_i stopped heq
    rw [heq] at hlearning
    have hhalted := stopTrackers_coherent hlearning halt
    simp only
    split_ifs
    · exact hhalted
    · exact hhalted.congr rfl rfl rfl hhalted.not_relax
    · exact hhalted

theorem startBondedTracker_coherent {services : UrsulaServices} (h : services.Coherent) :
    services.startBondedTracker.Coherent := by
  unfold startBondedTracker
  split_ifs with hwork
  · refine ⟨h.not_relax, ?_, ?_⟩
    · intro hfederated
      simp [h.federated_none hfederated]
    · intro hnone
      have hmissing : services.workTracker = none := hnone
      rw [hmissing] at hwork
      cases hwork
  · exact h

/-- Every operation keeps the invariant. -/
theorem step_coherent {services : UrsulaServices} (h : services.Coherent) (op : Op) :
    (services.step op).Coherent := by
  cases op with
  | service op => exact serviceStep_coherent h op
  | startBondedTracker => exact startBondedTracker_coherent h
  | stopLearningLoop => exact stopLearningLoop_coherent h
  | stop haltReactor halt => exact stop_coherent h haltReactor halt

/-- Every run keeps the invariant. -/
theorem run_coherent {services : UrsulaServices} (h : services.Coherent) (ops : List Op) :
    (services.run ops).Coherent := by
  induction ops generalizing services with
  | nil => exact h
  | cons op ops ih => exact ih (step_coherent h op)

/-! ## Clean stops -/

/-- A stop returns without raising and everything it is to stop is not running. -/
def StopsCleanly (services : UrsulaServices) (haltReactor haltOperatorBondedTracker : Bool) :
    Prop :=
  (services.stop haltReactor haltOperatorBondedTracker).2 = none ∧
    (services.stop haltReactor haltOperatorBondedTracker).1.AllStopped haltOperatorBondedTracker

/-- From every reachable state, a stop returns with everything stopped exactly when the discovery
canceller can be used and a reactor that is to be stopped is running. -/
theorem stopsCleanly_iff (federatedOnly operatorReady : Bool) (ops : List Op)
    (haltReactor haltOperatorBondedTracker : Bool) :
    ((new federatedOnly operatorReady).run ops).StopsCleanly haltReactor
        haltOperatorBondedTracker ↔
      ((new federatedOnly operatorReady).run ops).CanCancel ∧
        (haltReactor = true →
          ((new federatedOnly operatorReady).run ops).reactorStopped = false) := by
  have h := run_coherent (new_coherent federatedOnly operatorReady) ops
  by_cases hcancel : ((new federatedOnly operatorReady).run ops).CanCancel
  · rcases stop_of_canCancel h hcancel haltReactor haltOperatorBondedTracker with
      ⟨hall, hresult⟩
    rw [StopsCleanly, hresult]
    exact ⟨fun hclean => ⟨hcancel, hclean.1⟩, fun hreactor => ⟨hreactor.2, hall⟩⟩
  · rw [StopsCleanly, stop_of_not_canCancel h hcancel]
    constructor
    · rintro ⟨hraised, -⟩
      cases hraised
    · rintro ⟨hcan, -⟩
      exact absurd hcan hcancel

/-! ## A spent canceller -/

theorem not_canCancel_iff {services : UrsulaServices} :
    ¬ services.CanCancel ↔ services.learningDeferred ≠ .unset ∧ services.stopNow = true := by
  rw [CanCancel, not_or, Bool.not_eq_false]

/-- Stopping the trackers does not concern the canceller. -/
theorem canCancel_stopTrackers (services : UrsulaServices) (halt : Bool) :
    (services.stopTrackers halt).CanCancel ↔ services.CanCancel := by
  rcases stopTrackers_frame services halt with ⟨work, bonded, heq, -⟩
  rw [heq]
  exact Iff.rfl

/-- A stop that meets a learning round leaves a spent canceller. -/
theorem stop_spends {services : UrsulaServices} (h : services.Coherent)
    (hdeferred : services.learningDeferred ≠ .unset) (haltReactor halt : Bool) :
    ¬ (services.stop haltReactor halt).1.CanCancel := by
  by_cases hcancel : services.CanCancel
  · have hlearning := @stopLearningLoop_eq services.stopAvailability h.not_relax
    rw [if_pos (show services.stopAvailability.CanCancel from hcancel)] at hlearning
    have hspent : ∀ stopped, services.stopAvailability.stopLearningLoop = (stopped, none) →
        ¬ (stopped.stopTrackers halt).CanCancel := by
      intro stopped heq
      rw [hlearning] at heq
      rw [canCancel_stopTrackers, ← (Prod.mk.inj heq).1, not_canCancel_iff]
      exact ⟨hdeferred, by simp [stopAvailability, hdeferred]⟩
    unfold stop
    split
    · rename_i stopped error heq
      rw [hlearning] at heq
      cases heq
    · rename_i stopped heq
      simp only
      split_ifs
      · exact hspent stopped heq
      · exact hspent stopped heq
      · exact hspent stopped heq
  · rw [stop_of_not_canCancel h hcancel]
    exact hcancel

/-- No operation makes a spent canceller usable again. -/
theorem step_spent {services : UrsulaServices} (h : services.Coherent)
    (hspent : ¬ services.CanCancel) (op : Op) : ¬ (services.step op).CanCancel := by
  have hflags := not_canCancel_iff.mp hspent
  cases op with
  | service op =>
      rw [not_canCancel_iff]
      cases op with
      | startLearningLoop now learns =>
          simp only [step, serviceStep]
          split_ifs
          · exact hflags
          · exact ⟨by simp, hflags.2⟩
          · exact hflags
          · exact hflags
      | learningRound =>
          simp only [step, serviceStep]
          split_ifs
          · exact ⟨by simp, hflags.2⟩
          · exact hflags
      | learnAboutNodesNow force =>
          simp only [step, serviceStep]
          split_ifs
          · exact hflags
          · exact ⟨by simp, hflags.2⟩
          · exact hflags
      | _ => exact hflags
  | startBondedTracker =>
      simp only [step, startBondedTracker]
      split <;> exact hspent
  | stopLearningLoop =>
      simp only [step]
      rw [stopLearningLoop_eq h.not_relax, if_neg hspent]
      exact hspent
  | stop haltReactor halt => exact stop_spends h hflags.1 haltReactor halt

theorem run_spent {services : UrsulaServices} (h : services.Coherent)
    (hspent : ¬ services.CanCancel) (ops : List Op) : ¬ (services.run ops).CanCancel := by
  induction ops generalizing services with
  | nil => exact hspent
  | cons op ops ih => exact ih (step_coherent h op) (step_spent h hspent op)

/-- After a stop that met a learning round every later one raises, whatever happens between
them. -/
theorem stop_spent {services : UrsulaServices} (h : services.Coherent)
    (hdeferred : services.learningDeferred ≠ .unset) (haltReactor halt : Bool) (ops : List Op)
    (haltReactor' halt' : Bool) :
    (((services.stop haltReactor halt).1.run ops).stop haltReactor' halt').2 =
      some .assertionError := by
  have hcoherent := run_coherent (stop_coherent h haltReactor halt) ops
  have hspent := run_spent (stop_coherent h haltReactor halt)
    (stop_spends h hdeferred haltReactor halt) ops
  rw [stop_of_not_canCancel hcoherent hspent]

/-- A node whose learning loop has made a round is stopped, its work tracker is started again, and
the second stop raises and leaves the work tracker running. -/
theorem second_stop_raises :
    let services := (new false true).run
      [.service (.startLearningLoop true true), .stop false true, .service .startWork]
    (services.stop false true).2 = some .assertionError ∧
      (services.stop false true).1.workTracker = some true ∧
      ¬ services.StopsCleanly false true := by
  refine ⟨by decide, by decide, ?_⟩
  rintro ⟨hresult, -⟩
  revert hresult
  decide

end UrsulaServices

end NuLink
