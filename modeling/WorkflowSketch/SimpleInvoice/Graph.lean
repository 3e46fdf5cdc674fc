import WorkflowSketch.Lib.Simulate
import WorkflowSketch.SimpleInvoice.Attainable
import WorkflowSketch.SimpleInvoice.History

/-!
# Moving through the states

`canTransitionTo` gives the targets of a state one guard at a time. What an action does is the
whole slide after it, over dates that earlier rounds have left: a completion may end in `PAID`.

* `targets`: the states an action leads to. **`mem_targets_iff`**: exactly those, in runs.
* **`forward_of_run`**: a run only moves forward, unless it rejects or deletes the state.
* **`exists_payment_of_run`**: an invoice with an amount and a type is five actions at most away
  from `PAID`. **`payment_iff_of_run`**: it can still get there unless it was discarded.
-/

namespace WorkflowSketch

open Lib Lib.Transact

namespace SimpleInvoice

variable {invoice invoice' : SimpleInvoice} {action : Action} {c₀ c c' : Config}
  {tr tr' : Trace Config Action}

/-! ## The graph -/

/-- An action without its arguments. -/
inductive ActionKind where
  | initializeState | deleteState | setInvoiceType | setAmount | complete | approveAsManager
  | approveAsCountryLeader | pay | discard | reject
  deriving DecidableEq, Repr

/-- The action, with its arguments left out. -/
def Action.kind : Action → ActionKind
  | .initializeState => .initializeState
  | .deleteState => .deleteState
  | .setInvoiceType _ => .setInvoiceType
  | .setAmount _ => .setAmount
  | .complete _ _ => .complete
  | .approveAsManager _ => .approveAsManager
  | .approveAsCountryLeader _ => .approveAsCountryLeader
  | .pay _ => .pay
  | .discard _ => .discard
  | .reject _ => .reject

/-- The states an invoice rests in, or in none. -/
def restingStates : List (Option SimpleInvoiceState) :=
  [none, some .NEW, some .COMPLETED, some .APPROVED_BY_MANAGER, some .PAYABLE, some .PAID,
    some .DISCARDED]

/-- The states that an action leads to from a state. -/
def targets (kind : ActionKind) (s : Option SimpleInvoiceState) :
    List (Option SimpleInvoiceState) :=
  match kind, s with
  | .initializeState, none => restingStates.tail
  | .complete, some .NEW =>
    [some .COMPLETED, some .APPROVED_BY_MANAGER, some .PAYABLE, some .PAID]
  | .approveAsManager, some .COMPLETED => [some .APPROVED_BY_MANAGER, some .PAYABLE]
  | .approveAsCountryLeader, some .APPROVED_BY_MANAGER => [some .PAYABLE, some .PAID]
  | .pay, some .PAYABLE => [some .PAID]
  | .discard, some .NEW => [some .DISCARDED]
  | .reject, some .COMPLETED => [some .NEW]
  | .reject, some .APPROVED_BY_MANAGER => [some .NEW]
  | .reject, some .PAYABLE => [some .NEW]
  | .deleteState, s => if s ∈ restingStates then [none] else []
  | .initializeState, s => if s ∈ restingStates then [s] else []
  | .setInvoiceType, s => if s ∈ restingStates then [s] else []
  | .setAmount, s => if s ∈ restingStates then [s] else []
  | _, _ => []

theorem WellFormed.mem_restingStates (hw : invoice.WellFormed) :
    invoice.invoiceState ∈ restingStates := by
  cases hs : invoice.invoiceState with
  | none => simp [restingStates]
  | some s =>
    have hfits := hw.fits s hs
    cases s with
    | INIT => exact absurd hfits (by simp [Fits])
    | _ => simp [restingStates]

/-- A slide that is not told where it may end. -/
theorem mem_tail_restingStates (hw : invoice'.WellFormed)
    (h : invoice.reclassified = .ok invoice') :
    invoice'.invoiceState ∈ restingStates.tail := by
  obtain ⟨s, -, rfl⟩ := reclassified_eq_ok_iff.mp h
  have hmem := hw.mem_restingStates
  simpa [restingStates, inState] using hmem

/-- **Where a completion ends**: with its dates, in none of the states that lack them. -/
theorem state_of_completed (hw : invoice'.WellFormed) (h : invoice.reclassified = .ok invoice')
    (hc : invoice.completedOn ≠ none) :
    invoice'.invoiceState ∈
      [some .COMPLETED, some .APPROVED_BY_MANAGER, some .PAYABLE, some .PAID] := by
  obtain ⟨s, -, rfl⟩ := reclassified_eq_ok_iff.mp h
  have hfits := hw.fits s rfl
  have hd : invoice.discardedOn = none := hw.completed_or_discarded.resolve_left hc
  cases s with
  | INIT => exact absurd hfits (by simp [Fits])
  | NEW => exact absurd hfits.1 hc
  | DISCARDED => exact absurd hd hfits
  | _ => simp [inState]

/-- **Where the manager's approval ends**: the invoice is not merely completed any more, and was
not paid, since it was not approved before. -/
theorem state_of_approved {now : LocalDate} (ha : invoice.Attainable)
    (hen : (Action.approveAsManager now).isEnabled invoice = true)
    (h : outcome (.approveAsManager now) invoice = .ok invoice') :
    invoice'.invoiceState ∈ [some .APPROVED_BY_MANAGER, some .PAYABLE] := by
  have hw' := ha.wellFormed.of_outcome hen h
  obtain ⟨hc, -, hm⟩ := ha.wellFormed.fits .COMPLETED (isEnabled_approveAsManager.mp hen)
  have hstate := state_of_completed hw' h hc
  have hm' : invoice'.approvedByManagerOn ≠ none := by
    rw [outcome_eq_body h]
    exact Option.some_ne_none now
  have hp' : invoice'.paidOn = none := by
    rw [outcome_eq_body h]
    exact not_not.mp fun hp => ha.datesFollow.paid hp hm
  simp only [List.mem_cons, List.not_mem_nil, or_false] at hstate
  rcases hstate with hs' | hs' | hs' | hs'
  · exact absurd (hw'.fits .COMPLETED hs').2.2 hm'
  · simp [hs']
  · simp [hs']
  · exact absurd hp' (hw'.fits .PAID hs').2.2.2

/-- **An action leads to its targets only.** -/
theorem mem_targets_of_outcome (ha : invoice.Attainable) (hen : action.isEnabled invoice = true)
    (h : outcome action invoice = .ok invoice') :
    invoice'.invoiceState ∈ targets action.kind invoice.invoiceState := by
  have hw := ha.wellFormed
  have hw' := hw.of_outcome hen h
  have hresting := hw.mem_restingStates
  cases action with
  | initializeState =>
    simp only [outcome] at h
    split at h
    · rename_i hs
      rw [hs]
      exact mem_tail_restingStates hw' h
    · rename_i hs
      cases h
      obtain ⟨s, hs⟩ := Option.ne_none_iff_exists'.mp hs
      rw [hs] at hresting ⊢
      simp [Action.kind, targets, hresting]
  | deleteState => cases h; simp [Action.kind, targets, hresting, deleteState]
  | setInvoiceType invoiceType => cases h; simp [Action.kind, targets, hresting, setInvoiceType]
  | setAmount amount => cases h; simp [Action.kind, targets, hresting, setAmount]
  | complete assignNextTaskTo now =>
    rw [(isEnabled_complete.mp hen).1]
    exact state_of_completed hw' h (Option.some_ne_none now)
  | approveAsManager now =>
    rw [isEnabled_approveAsManager.mp hen]
    exact state_of_approved ha hen h
  | approveAsCountryLeader now =>
    rw [isEnabled_approveAsCountryLeader.mp hen]
    cases h
    by_cases hp : invoice.paidOn = none
    · simp [Action.kind, targets, inState, hp]
    · simp [Action.kind, targets, inState, hp]
  | pay now =>
    rw [isEnabled_pay.mp hen]
    cases h
    simp [Action.kind, targets, inState]
  | discard now =>
    rw [isEnabled_discard.mp hen]
    cases h
    simp [Action.kind, targets, inState]
  | reject now =>
    cases h
    rcases isEnabled_reject.mp hen with hs | hs | hs
    · simp [hs, Action.kind, targets, inState]
    · simp [hs, Action.kind, targets, inState]
    · simp [hs, Action.kind, targets, inState]

/-- An invoice in the state, with the dates and the amount that call for it. -/
def sample (n : String) : Option SimpleInvoiceState → SimpleInvoice
  | none => create n
  | some .INIT => create n
  | some .NEW =>
    { create n with
      invoiceState := some .NEW, invoiceType := some .CAPEX, amount := some ⟨500, 0⟩ }
  | some .COMPLETED =>
    { create n with
      invoiceState := some .COMPLETED, invoiceType := some .CAPEX, amount := some ⟨500, 0⟩,
      completedOn := some ⟨1⟩ }
  | some .APPROVED_BY_MANAGER =>
    { create n with
      invoiceState := some .APPROVED_BY_MANAGER, invoiceType := some .CAPEX,
      amount := some ⟨20000, 0⟩, completedOn := some ⟨1⟩, approvedByManagerOn := some ⟨2⟩ }
  | some .PAYABLE =>
    { create n with
      invoiceState := some .PAYABLE, invoiceType := some .CAPEX, amount := some ⟨500, 0⟩,
      completedOn := some ⟨1⟩, approvedByManagerOn := some ⟨2⟩ }
  | some .PAID =>
    { create n with
      invoiceState := some .PAID, invoiceType := some .CAPEX, amount := some ⟨500, 0⟩,
      completedOn := some ⟨1⟩, approvedByManagerOn := some ⟨2⟩, paidOn := some ⟨3⟩ }
  | some .DISCARDED =>
    { create n with
      invoiceState := some .DISCARDED, invoiceType := some .CAPEX, amount := some ⟨500, 0⟩,
      discardedOn := some ⟨1⟩ }

theorem invoiceNumber_sample (n : String) (s : Option SimpleInvoiceState) :
    (sample n s).invoiceNumber = n := by
  rcases s with _ | s
  · rfl
  · cases s <;> rfl

/-- An invoice in the one state, and an action that takes it to the other one. -/
def sampleStep (n : String) (kind : ActionKind) (s s' : Option SimpleInvoiceState) :
    SimpleInvoice × Action :=
  match kind with
  | .initializeState => ({ sample n s' with invoiceState := s }, .initializeState)
  | .deleteState => (sample n s, .deleteState)
  | .setInvoiceType => (sample n s, .setInvoiceType none)
  | .setAmount => (sample n s, .setAmount none)
  | .complete =>
    -- rejected before, with the approvals of its first round
    ({ sample n s' with invoiceState := s, completedOn := none, rejectedOn := some ⟨4⟩ },
      .complete none ⟨5⟩)
  | .approveAsManager =>
    ({ sample n s' with invoiceState := s, approvedByManagerOn := none }, .approveAsManager ⟨5⟩)
  | .approveAsCountryLeader =>
    ({ sample n s' with invoiceState := s }, .approveAsCountryLeader ⟨5⟩)
  | .pay => (sample n s, .pay ⟨5⟩)
  | .discard => (sample n s, .discard ⟨5⟩)
  | .reject => (sample n s, .reject ⟨5⟩)

/-- The sample is one: attainable, in the state, and the action offered on it leads to the other. -/
def isSample (kind : ActionKind) (s s' : Option SimpleInvoiceState) (p : SimpleInvoice × Action) :
    Bool :=
  decide p.1.Attainable && p.2.kind == kind && p.1.invoiceState == s && p.2.isEnabled p.1 &&
    match outcome p.2 p.1 with
    | .ok invoice' => invoice'.invoiceState == s'
    | .error _ => false

/-- **There is a sample for every target.** -/
theorem isSample_sampleStep (n : String) (kind : ActionKind) (s : Option SimpleInvoiceState) :
    (targets kind s).all (fun s' => isSample kind s s' (sampleStep n kind s s')) = true := by
  cases kind <;> rcases s with _ | _ | _ | _ | _ | _ | _ | _ <;> rfl

theorem exists_outcome_of_mem_targets {kind : ActionKind} {s s' : Option SimpleInvoiceState}
    (h : s' ∈ targets kind s) (n : String) :
    ∃ invoice action invoice', invoice.Attainable ∧ invoice.invoiceNumber = n ∧
      action.kind = kind ∧ invoice.invoiceState = s ∧ action.isEnabled invoice = true ∧
      outcome action invoice = .ok invoice' ∧ invoice'.invoiceState = s' := by
  have hsample := List.all_eq_true.mp (isSample_sampleStep n kind s) s' h
  have hn : (sampleStep n kind s s').1.invoiceNumber = n := by
    cases kind <;> exact invoiceNumber_sample n _
  simp only [isSample, Bool.and_eq_true, decide_eq_true_eq, beq_iff_eq] at hsample
  obtain ⟨⟨⟨⟨ha, hkind⟩, hs⟩, hen⟩, hout⟩ := hsample
  split at hout
  · rename_i invoice' hok
    exact ⟨_, _, invoice', ha, hn, hkind, hs, hen, hok, beq_iff_eq.mp hout⟩
  · exact absurd hout (by simp)

/-- **The graph, exactly**: the targets of a state are where runs get from it by such an action. -/
theorem mem_targets_iff (h₀ : c₀.IsCreated) {kind : ActionKind}
    {s s' : Option SimpleInvoiceState} :
    s' ∈ targets kind s ↔ ∃ tr c action c', Run SimpleInvoiceWorkFlow c₀ tr c ∧
      SimpleInvoiceWorkFlow.enabled c action = true ∧ perform c action = .ok c' ∧
      action.kind = kind ∧ c.invoice.val.invoiceState = s ∧ c'.invoice.val.invoiceState = s' := by
  constructor
  · intro h
    obtain ⟨invoice, action, invoice', ha, hn, hkind, hs, hen, hout, hs'⟩ :=
      exists_outcome_of_mem_targets h c₀.invoice.val.invoiceNumber
    obtain ⟨tr, c, hrun, rfl⟩ := Reached.of_attainable h₀ ha hn.symm
    obtain ⟨c', hok⟩ := (perform_isOk_iff ha.wellFormed hen).mpr ⟨_, hout⟩
    obtain ⟨hout', -⟩ := perform_cases ha.wellFormed hen hok
    obtain rfl := Except.ok.inj (hout.symm.trans hout')
    exact ⟨tr, c, action, c', hrun, hen, hok, hkind, hs, hs'⟩
  · rintro ⟨tr, c, action, c', hrun, hen, hok, rfl, rfl, rfl⟩
    obtain ⟨ha, -⟩ := attainable_of_run h₀ hrun
    obtain ⟨hout, -⟩ := perform_cases ha.wellFormed hen hok
    exact mem_targets_of_outcome ha hen hout

/-- A completion may end in `PAID`, but never in `DISCARDED`. -/
theorem mem_targets_of_fresh :
    (∃ tr c action c', Run SimpleInvoiceWorkFlow .fresh tr c ∧
      SimpleInvoiceWorkFlow.enabled c action = true ∧ perform c action = .ok c' ∧
      action.kind = .complete ∧ c.invoice.val.invoiceState = some .NEW ∧
      c'.invoice.val.invoiceState = some .PAID) ∧
    ¬ ∃ tr c action c', Run SimpleInvoiceWorkFlow .fresh tr c ∧
      SimpleInvoiceWorkFlow.enabled c action = true ∧ perform c action = .ok c' ∧
      action.kind = .complete ∧ c.invoice.val.invoiceState = some .NEW ∧
      c'.invoice.val.invoiceState = some .DISCARDED :=
  ⟨(mem_targets_iff Config.fresh_isCreated).mp (by decide),
    fun h => absurd ((mem_targets_iff Config.fresh_isCreated).mpr h) (by decide)⟩

/-! ## Forward only -/

/-- How far an invoice has come. -/
def progress : Option SimpleInvoiceState → Nat
  | none => 0
  | some s => rank s

/-- The action may lead back: a rejection, or the deletion of the state. -/
def ActionKind.isBackward : ActionKind → Bool
  | .deleteState => true
  | .reject => true
  | _ => false

/-- No other action leads back. -/
theorem progress_le_of_mem_targets {kind : ActionKind} {s s' : Option SimpleInvoiceState}
    (h : s' ∈ targets kind s) (hkind : kind.isBackward = false) : progress s ≤ progress s' := by
  have hall : (targets kind s).all (fun s' => kind.isBackward || progress s ≤ progress s') =
      true := by
    cases kind <;> rcases s with _ | _ | _ | _ | _ | _ | _ | _ <;> rfl
  simpa [hkind] using List.all_eq_true.mp hall s' h

/-- How far the invoice has come. -/
def Config.progress (config : Config) : Nat :=
  SimpleInvoice.progress config.invoice.val.invoiceState

/-- The configurations of a stretch of a run, each as far as the ones before it. -/
structure MovesForward (tr : Trace Config Action) (c : Config) : Prop where
  sorted : (visited tr c).Pairwise fun u v => u.progress ≤ v.progress
  last : ∀ u ∈ visited tr c, u.progress ≤ c.progress

theorem MovesForward.start (c : Config) : MovesForward [] c where
  sorted := List.pairwise_singleton _ _
  last u hu := by rw [List.mem_singleton.mp hu]

theorem MovesForward.commit (h : MovesForward tr c) (hle : c.progress ≤ c'.progress) :
    MovesForward (tr ++ [(c, action)]) c' := by
  have hvisited : visited (tr ++ [(c, action)]) c' = visited tr c ++ [c'] := by simp [visited]
  have hlast : ∀ u ∈ visited tr c, u.progress ≤ c'.progress :=
    fun u hu => (h.last u hu).trans hle
  constructor
  · rw [hvisited, List.pairwise_append]
    exact ⟨h.sorted, List.pairwise_singleton _ _,
      fun u hu v hv => List.mem_singleton.mp hv ▸ hlast u hu⟩
  · rw [hvisited, List.forall_mem_append]
    exact ⟨hlast, fun u hu => by rw [List.mem_singleton.mp hu]⟩

theorem progress_le_of_outcome (ha : c.invoice.val.Attainable)
    (hen : action.isEnabled c.invoice.val = true)
    (hout : outcome action c.invoice.val = .ok c'.invoice.val)
    (hkind : action.kind.isBackward = false) : c.progress ≤ c'.progress :=
  progress_le_of_mem_targets (mem_targets_of_outcome ha hen hout) hkind

/-- **A run moves forward only**, as long as it neither rejects nor deletes the state: no state
left is entered again. -/
theorem forward_of_run (h₀ : c₀.IsCreated) (h : Run SimpleInvoiceWorkFlow c₀ tr c)
    (h' : Run SimpleInvoiceWorkFlow c tr' c')
    (hforward : ∀ step ∈ tr', step.2.kind.isBackward = false) :
    (visited tr' c').Pairwise fun u v => u.progress ≤ v.progress := by
  obtain ⟨ha, -⟩ := attainable_of_run h₀ h
  have hboth : c'.invoice.val.Attainable ∧
      ((∀ step ∈ tr', step.2.kind.isBackward = false) → MovesForward tr' c') := by
    refine keepOutcome_of_run (P := fun tr' c' => c'.invoice.val.Attainable ∧
      ((∀ step ∈ tr', step.2.kind.isBackward = false) → MovesForward tr' c')) ?_ ha.wellFormed
      ⟨ha, fun _ => MovesForward.start c⟩ h'
    intro tr c action c' ⟨ha, hmoves⟩ _ hen hout
    refine ⟨ha.of_outcome hen hout, fun hall => ?_⟩
    obtain ⟨hbefore, hkind⟩ := List.forall_mem_append.mp hall
    exact (hmoves hbefore).commit
      (progress_le_of_outcome ha hen hout (hkind (c, action) (List.mem_singleton_self _)))
  exact (hboth.2 hforward).sorted

/-- From the approval on, a payment and a start from scratch. -/
theorem forward_of_payment :
    (visited
      ((exec SimpleInvoiceWorkFlow ((exec SimpleInvoiceWorkFlow .fresh approval).get (by decide)).2
        [.setAmount none, .pay ⟨3⟩, .initializeState]).get (by decide)).1
      ((exec SimpleInvoiceWorkFlow ((exec SimpleInvoiceWorkFlow .fresh approval).get (by decide)).2
        [.setAmount none, .pay ⟨3⟩, .initializeState]).get (by decide)).2).Pairwise
      fun u v => u.progress ≤ v.progress :=
  forward_of_run Config.fresh_isCreated (run_exec (by decide)) (run_exec (by decide)) (by decide)

/-! ## To the payment -/

/-- The step that is next on an invoice on its way to the payment. -/
def nextAction (invoice : SimpleInvoice) (now : LocalDate) : Action :=
  match invoice.invoiceState with
  | some .NEW => .complete none now
  | some .COMPLETED => .approveAsManager now
  | some .APPROVED_BY_MANAGER => .approveAsCountryLeader now
  | some .PAYABLE => .pay now
  | _ => .initializeState

/-- One of the actions that take an invoice to its payment. -/
def ActionKind.isTowardsPayment : ActionKind → Bool
  | .initializeState | .complete | .approveAsManager | .approveAsCountryLeader | .pay => true
  | _ => false

/-- Nothing stands in the way of the payment. -/
structure Payable (invoice : SimpleInvoice) : Prop where
  attainable : invoice.Attainable
  not_discarded : invoice.discardedOn = none
  amount : invoice.amount ≠ none
  invoiceType : invoice.invoiceType ≠ none

theorem Payable.nextAction (h : invoice.Payable) (hs : invoice.invoiceState ≠ some .PAID)
    (now : LocalDate) :
    (invoice.nextAction now).isEnabled invoice = true ∧
      (invoice.nextAction now).kind.isTowardsPayment = true ∧
      ∃ invoice', outcome (invoice.nextAction now) invoice = .ok invoice' := by
  have hamount : ∀ i : SimpleInvoice, i.amount = invoice.amount →
      ∃ invoice', i.reclassified = .ok invoice' :=
    fun i hi => reclassified_isOk_iff.mpr fun hnull => h.amount (hi ▸ hnull.2.2.2)
  unfold SimpleInvoice.nextAction
  cases hstate : invoice.invoiceState with
  | none =>
    refine ⟨rfl, rfl, ?_⟩
    simp only [outcome, hstate, if_true]
    exact hamount invoice rfl
  | some s =>
    cases s with
    | INIT => exact absurd (h.attainable.wellFormed.fits .INIT hstate) (by simp [Fits])
    | NEW => exact ⟨isEnabled_complete.mpr ⟨hstate, h.amount, h.invoiceType⟩, rfl, hamount _ rfl⟩
    | COMPLETED => exact ⟨isEnabled_approveAsManager.mpr hstate, rfl, hamount _ rfl⟩
    | APPROVED_BY_MANAGER => exact ⟨isEnabled_approveAsCountryLeader.mpr hstate, rfl, _, rfl⟩
    | PAYABLE => exact ⟨isEnabled_pay.mpr hstate, rfl, _, rfl⟩
    | PAID => exact absurd hstate hs
    | DISCARDED =>
      have hdiscarded : invoice.discardedOn ≠ none :=
        h.attainable.wellFormed.fits .DISCARDED hstate
      exact absurd h.not_discarded hdiscarded

/-- The actions towards the payment write none of what it needs. -/
theorem Payable.of_outcome (h : invoice.Payable) (hen : action.isEnabled invoice = true)
    (hkind : action.kind.isTowardsPayment = true) (hout : outcome action invoice = .ok invoice') :
    invoice'.Payable := by
  have hsame : (action.body invoice).discardedOn = invoice.discardedOn ∧
      (action.body invoice).amount = invoice.amount ∧
      (action.body invoice).invoiceType = invoice.invoiceType := by
    cases action <;> first
      | exact ⟨rfl, rfl, rfl⟩
      | exact absurd hkind (by simp [Action.kind, ActionKind.isTowardsPayment])
  obtain ⟨hd, ha, ht⟩ := hsame
  have hbody := outcome_eq_body hout
  refine ⟨h.attainable.of_outcome hen hout, ?_, ?_, ?_⟩
  · rw [hbody]; exact hd.trans h.not_discarded
  · rw [hbody]; exact ha.trans_ne h.amount
  · rw [hbody]; exact ht.trans_ne h.invoiceType

/-- An invoice that can be paid has come as far as `PAID` at most. -/
theorem Payable.progress_le (h : invoice.Payable) : progress invoice.invoiceState ≤ 5 := by
  cases hs : invoice.invoiceState with
  | none => simp [progress]
  | some s =>
    cases s with
    | DISCARDED =>
      have hdiscarded : invoice.discardedOn ≠ none := h.attainable.wellFormed.fits .DISCARDED hs
      exact absurd h.not_discarded hdiscarded
    | _ => simp [progress, rank]

/-- The next step comes closer. -/
theorem progress_lt_of_mem_targets {s' : Option SimpleInvoiceState} {now : LocalDate}
    (hs : invoice.invoiceState ≠ some .PAID) (hd : invoice.invoiceState ≠ some .DISCARDED)
    (h : s' ∈ targets (invoice.nextAction now).kind invoice.invoiceState) :
    progress invoice.invoiceState < progress s' := by
  have hall : (targets (invoice.nextAction now).kind invoice.invoiceState).all (fun s' =>
      progress invoice.invoiceState < progress s') = true := by
    unfold SimpleInvoice.nextAction
    rcases hstate : invoice.invoiceState with _ | s
    · rfl
    · cases s <;> first | rfl | exact absurd hstate hs | exact absurd hstate hd
  simpa using List.all_eq_true.mp hall s' h

/-- **From an invoice that nothing stands in the way of** a run of such actions gets to the payment,
one action for each state in between. -/
theorem Payable.exists_run (h : c.invoice.val.Payable) :
    ∃ tr' c', Run SimpleInvoiceWorkFlow c tr' c' ∧ c'.invoice.val.invoiceState = some .PAID ∧
      tr'.length ≤ 5 - c.progress ∧ ∀ step ∈ tr', step.2.kind.isTowardsPayment = true := by
  have hstep : ∀ c : Config, c.invoice.val.Payable → ¬ c.invoice.val.invoiceState = some .PAID →
      ∃ action c', action.kind.isTowardsPayment = true ∧
        SimpleInvoiceWorkFlow.enabled c action = true ∧
        SimpleInvoiceWorkFlow.perform c action = .ok c' ∧ c'.invoice.val.Payable ∧
        5 - c'.progress < 5 - c.progress := by
    intro c hpay hs
    have ha := hpay.attainable
    obtain ⟨hen, hkind, invoice', hout⟩ := hpay.nextAction hs ⟨0⟩
    obtain ⟨c', hok⟩ := (perform_isOk_iff ha.wellFormed hen).mpr ⟨invoice', hout⟩
    obtain ⟨hout', -⟩ := perform_cases ha.wellFormed hen hok
    have hpay' := hpay.of_outcome hen hkind hout'
    have hd : c.invoice.val.invoiceState ≠ some .DISCARDED := by
      intro hdiscarded
      have hdate : c.invoice.val.discardedOn ≠ none := ha.wellFormed.fits .DISCARDED hdiscarded
      exact hdate hpay.not_discarded
    have hcloser : c.progress < c'.progress :=
      progress_lt_of_mem_targets hs hd (mem_targets_of_outcome ha hen hout')
    have hle : c'.progress ≤ 5 := hpay'.progress_le
    exact ⟨_, c', hkind, hen, hok, hpay', by omega⟩
  obtain ⟨tr', c', hrun, -, hpaid, hlength, hkinds⟩ :=
    Run.exists_of_progress (fun c : Config => 5 - c.progress) hstep h
  exact ⟨tr', c', hrun, hpaid, hlength, hkinds⟩

/-- **To the payment without an edit**: from every configuration reached in which the invoice has
an amount and a type and was not discarded, five actions at most, none of which takes anything
back. -/
theorem exists_payment_of_run (h₀ : c₀.IsCreated) (h : Run SimpleInvoiceWorkFlow c₀ tr c)
    (hd : c.invoice.val.discardedOn = none) (ha : c.invoice.val.amount ≠ none)
    (ht : c.invoice.val.invoiceType ≠ none) :
    ∃ tr' c', Run SimpleInvoiceWorkFlow c tr' c' ∧ c'.invoice.val.invoiceState = some .PAID ∧
      tr'.length ≤ 5 ∧ ∀ step ∈ tr', step.2.kind.isTowardsPayment = true := by
  have hpay : c.invoice.val.Payable := ⟨(attainable_of_run h₀ h).1, hd, ha, ht⟩
  obtain ⟨tr', c', hrun, hpaid, hlength, hkinds⟩ := hpay.exists_run
  exact ⟨tr', c', hrun, hpaid, hlength.trans (Nat.sub_le _ _), hkinds⟩

/-- A rejected invoice is completed and paid all the same. -/
theorem exists_payment_of_rejection :
    ∃ tr' c', Run SimpleInvoiceWorkFlow
        ((exec SimpleInvoiceWorkFlow .fresh (approval ++ [.reject ⟨3⟩])).get (by decide)).2
        tr' c' ∧
      c'.invoice.val.invoiceState = some .PAID ∧ tr'.length ≤ 5 ∧
      ∀ step ∈ tr', step.2.kind.isTowardsPayment = true :=
  exists_payment_of_run Config.fresh_isCreated (run_exec (by decide)) (by decide) (by decide)
    (by decide)

/-- A discarded invoice stays so, whatever is done to it. -/
theorem Discarded.of_run (h : c.invoice.val.Discarded) (hw : c.invoice.val.WellFormed)
    (hrun : Run SimpleInvoiceWorkFlow c tr' c') : c'.invoice.val.Discarded :=
  keepOutcome_of_run (P := fun _ c => c.invoice.val.Discarded)
    (fun hdiscarded _ hen hout => hdiscarded.of_outcome hen hout) hw h hrun

theorem WellFormed.discarded (hw : invoice.WellFormed) (hd : invoice.discardedOn ≠ none) :
    invoice.Discarded := by
  have hc : invoice.completedOn = none := hw.completed_or_discarded.resolve_right hd
  refine ⟨?_, hc, hd⟩
  cases hs : invoice.invoiceState with
  | none => exact Or.inr hs
  | some s =>
    have hfits := hw.fits s hs
    cases s with
    | INIT => exact absurd hfits (by simp [Fits])
    | NEW => exact absurd hfits.2 hd
    | DISCARDED => exact Or.inl hs
    | _ => exact absurd hc hfits.1

/-- A discarded invoice is never paid. -/
theorem WellFormed.not_paid (hw : c.invoice.val.WellFormed)
    (hd : c.invoice.val.discardedOn ≠ none) (hrun : Run SimpleInvoiceWorkFlow c tr' c') :
    c'.invoice.val.invoiceState ≠ some .PAID := by
  intro hpaid
  rcases ((hw.discarded hd).of_run hw hrun).endsIn with hs | hs <;>
    exact absurd (hpaid.symm.trans hs) (by simp)

/-- Any other one is, once the amount and the type are filled in. -/
theorem Attainable.exists_payment (ha : c.invoice.val.Attainable)
    (hd : c.invoice.val.discardedOn = none) :
    ∃ tr' c', Run SimpleInvoiceWorkFlow c tr' c' ∧ c'.invoice.val.invoiceState = some .PAID := by
  let amount : Action := .setAmount (some ⟨0, 0⟩)
  let type : Action := .setInvoiceType (some .CAPEX)
  have hrun : Run SimpleInvoiceWorkFlow c [(c, amount), (c.update amount.body, type)]
      ((c.update amount.body).update type.body) :=
    (Run.single rfl rfl).trans (Run.single rfl rfl)
  have ha' : Attainable (type.body (amount.body c.invoice.val)) :=
    (ha.of_outcome (show amount.isEnabled _ = true from rfl) rfl).of_outcome
      (show type.isEnabled _ = true from rfl) rfl
  have hpay : Payable ((c.update amount.body).update type.body).invoice.val :=
    ⟨ha', hd, Option.some_ne_none _, Option.some_ne_none _⟩
  obtain ⟨tr', c', hrun', hpaid, -⟩ := hpay.exists_run
  exact ⟨_, c', hrun.trans hrun', hpaid⟩

/-- **When an invoice can end in `PAID`**, at once if it is there, from any configuration reached:
exactly if it was not discarded. -/
theorem payment_iff_of_run (h₀ : c₀.IsCreated) (h : Run SimpleInvoiceWorkFlow c₀ tr c) :
    (∃ tr' c', Run SimpleInvoiceWorkFlow c tr' c' ∧
      c'.invoice.val.invoiceState = some .PAID) ↔ c.invoice.val.discardedOn = none := by
  obtain ⟨ha, -⟩ := attainable_of_run h₀ h
  constructor
  · rintro ⟨tr', c', hrun, hpaid⟩
    by_contra hd
    exact ha.wellFormed.not_paid hd hrun hpaid
  · exact ha.exists_payment

/-- An approved invoice can end in `PAID`, also after its state and its amount were deleted. -/
theorem payment_iff_of_deletion :
    ∃ tr' c', Run SimpleInvoiceWorkFlow
        ((exec SimpleInvoiceWorkFlow .fresh (approval ++ [.deleteState, .setAmount none])).get
          (by decide)).2 tr' c' ∧
      c'.invoice.val.invoiceState = some .PAID :=
  (payment_iff_of_run Config.fresh_isCreated (run_exec (by decide))).mpr (by decide)

end SimpleInvoice

end WorkflowSketch
