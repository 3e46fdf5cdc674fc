import WorkflowSketch.Lib.Simulate
import WorkflowSketch.SimpleInvoice.Interleaving

/-!
# What the workflow reads of the data

The guards, the `hide…` and `disable…` methods and the subscriber ask which state an invoice is in,
whether a date, a type or an amount is there, and on which side of the threshold an amount is. They
read nothing else: neither the clock nor the number, the type, the scale of the amount or the person
a task is for.

* `normal`: what they read of an invoice and of an action, as an invoice and an action.
* `Similar`: two configurations that differ in nothing they read: in the same state, with the same
  data present, the amounts on the same side, and tasks for the same roles.
* **`exec_of_normal`**: the same steps are offered in both, throw in both, and lead through the same
  states to the same tasks.
-/

namespace WorkflowSketch

open Lib Lib.FirstRepeat Lib.Transact

/-- An amount on the same side of the threshold. -/
def normalAmount (amount : BigDecimal) : BigDecimal :=
  if amount.compareTo approvalThreshold < 0 then ⟨0, 0⟩ else approvalThreshold

theorem compareTo_normalAmount (amount : BigDecimal) :
    (normalAmount amount).compareTo approvalThreshold < 0 ↔
      amount.compareTo approvalThreshold < 0 := by
  unfold normalAmount
  by_cases h : amount.compareTo approvalThreshold < 0
  · rw [if_pos h]
    exact iff_of_true (by decide) h
  · rw [if_neg h]
    exact iff_of_false (by decide) h

namespace SimpleInvoice

open SimpleInvoiceTaskRepository SimpleInvoiceTaskService

/-- An invoice that differs in nothing that the workflow reads: it is in the same state, with the
same data present, and an amount on the same side of the threshold. -/
def normal (invoice : SimpleInvoice) : SimpleInvoice where
  invoiceNumber := ""
  invoiceState := invoice.invoiceState
  invoiceType := invoice.invoiceType.map fun _ => .CAPEX
  amount := invoice.amount.map normalAmount
  completedOn := invoice.completedOn.map fun _ => ⟨0⟩
  approvedByManagerOn := invoice.approvedByManagerOn.map fun _ => ⟨0⟩
  approvedByCountryLeaderOn := invoice.approvedByCountryLeaderOn.map fun _ => ⟨0⟩
  paidOn := invoice.paidOn.map fun _ => ⟨0⟩
  discardedOn := invoice.discardedOn.map fun _ => ⟨0⟩
  rejectedOn := invoice.rejectedOn.map fun _ => ⟨0⟩

/-- The action, with other arguments that make no difference. -/
def Action.normal : Action → Action
  | .initializeState => .initializeState
  | .deleteState => .deleteState
  | .setInvoiceType invoiceType => .setInvoiceType (invoiceType.map fun _ => .CAPEX)
  | .setAmount amount => .setAmount (amount.map normalAmount)
  | .complete _ _ => .complete none ⟨0⟩
  | .approveAsManager _ => .approveAsManager ⟨0⟩
  | .approveAsCountryLeader _ => .approveAsCountryLeader ⟨0⟩
  | .pay _ => .pay ⟨0⟩
  | .discard _ => .discard ⟨0⟩
  | .reject _ => .reject ⟨0⟩

variable {invoice : SimpleInvoice} {action a b : Action} {c c' d : Config}

/-! ## Nothing else is read -/

/-- **Every guard** answers, or throws, as on the normal invoice. -/
theorem isSatisfiedFor_normal (guard : SimpleInvoiceGuard) (invoice : SimpleInvoice) :
    guard.isSatisfiedFor invoice.normal = guard.isSatisfiedFor invoice := by
  cases guard with
  | COMPLETED_PAYABLE =>
    simp only [SimpleInvoiceGuard.isSatisfiedFor, normal, Option.isSome_map]
    cases invoice.amount with
    | none => rfl
    | some amount => simp only [Option.map_some, compareTo_normalAmount]
  | COMPLETED_APPBYMAN =>
    simp only [SimpleInvoiceGuard.isSatisfiedFor, normal, Option.isSome_map]
    cases invoice.amount with
    | none => rfl
    | some amount =>
      have hnot : (normalAmount amount).compareTo approvalThreshold ≥ 0 ↔
          amount.compareTo approvalThreshold ≥ 0 := by
        rw [ge_iff_le, ge_iff_le, ← not_lt, ← not_lt, compareTo_normalAmount]
      simp only [Option.map_some, hnot]
  | _ => simp only [SimpleInvoiceGuard.isSatisfiedFor, normal, Option.isSome_map]

theorem next_normal (invoice : SimpleInvoice) : invoice.normal.next = invoice.next := by
  funext s
  rw [next_eq, next_eq, SimpleInvoiceState.canTransitionTo]
  induction s.targetsAndGuards with
  | nil => rfl
  | cons tg l ih =>
    simp only [List.map_cons, WorkFlow.firstSatisfied, isSatisfiedFor_normal, ih]

theorem isEnabled_normal (action : Action) (invoice : SimpleInvoice) :
    action.normal.isEnabled invoice.normal = action.isEnabled invoice := by
  cases action with
  | complete assignNextTaskTo now =>
    rw [Bool.eq_iff_iff, Action.normal, isEnabled_complete, isEnabled_complete]
    simp [normal]
  | _ => rfl

/-- **An action writes nothing else**, as far as it is read. -/
theorem body_normal (action : Action) (invoice : SimpleInvoice) :
    action.normal.body invoice.normal = (action.body invoice).normal := by
  cases action <;> rfl

/-! ## The tasks -/

/-- The roles of the tasks of an invoice, in the order of the tasks. -/
def taskRoles (tasks : Table SimpleInvoiceTask) (invoice : Nat) : List (Option Role) :=
  (taskView tasks invoice).map Prod.fst

/-- What `maintainTasksFor` makes of them. -/
def maintainedRoles (state : SimpleInvoiceState) (roles : List (Option Role)) :
    List (Option Role) :=
  match survivingRole state with
  | none => []
  | some role =>
    match roles.filter (· == some role) with
    | [] => [some role]
    | found => found

/-- **The roles do not depend on the actor.** -/
theorem taskRoles_maintainTasksFor {tasks tasks' : Table SimpleInvoiceTask}
    {row : Row SimpleInvoice} {s : SimpleInvoiceState} {actor : Option Person}
    (hs : row.val.invoiceState = some s) (h : maintainTasksFor tasks row actor = .ok tasks') :
    taskRoles tasks' row.id = maintainedRoles s (taskRoles tasks row.id) := by
  unfold taskRoles maintainedRoles
  rw [taskView_maintainTasksFor hs h, maintainedView]
  cases survivingRole s with
  | none => rfl
  | some role =>
    have hfilter : ((taskView tasks row.id).map Prod.fst).filter (· == some role) =
        ((taskView tasks row.id).filter fun task => task.1 == some role).map Prod.fst :=
      List.filter_map
    dsimp only
    rw [hfilter]
    cases (taskView tasks row.id).filter fun task => task.1 == some role with
    | nil => rfl
    | cons task rest => rfl

/-! ## One step -/

/-- The configurations differ in nothing that is read. -/
structure Similar (c d : Config) : Prop where
  /-- The same state, the same data present, and the amounts on the same side. -/
  invoice : c.invoice.val.normal = d.invoice.val.normal
  /-- Tasks for the same roles, in the same order. -/
  roles : taskRoles c.tasks c.invoice.id = taskRoles d.tasks d.invoice.id

theorem Similar.symm (h : Similar c d) : Similar d c := ⟨h.invoice.symm, h.roles.symm⟩

theorem Similar.body (h : Similar c d) (hab : a.normal = b.normal) :
    (a.body c.invoice.val).normal = (b.body d.invoice.val).normal := by
  rw [← body_normal, ← body_normal, hab, h.invoice]

theorem Similar.isEnabled (h : Similar c d) (hab : a.normal = b.normal) :
    a.isEnabled c.invoice.val = b.isEnabled d.invoice.val := by
  rw [← isEnabled_normal a, ← isEnabled_normal b, hab, h.invoice]

theorem updatedArguments_isSome (action : Action) :
    action.normal.updatedArguments.isSome = action.updatedArguments.isSome := by
  cases action <;> rfl

/-- **A step does the same** where nothing that is read differs. -/
theorem Similar.perform (h : Similar c d) (hab : a.normal = b.normal)
    (hok : SimpleInvoice.perform c a = .ok c') :
    ∃ d', SimpleInvoice.perform d b = .ok d' ∧ Similar c' d' := by
  have hbody := h.body hab
  have hstate : c.invoice.val.invoiceState = d.invoice.val.invoiceState := by
    show c.invoice.val.normal.invoiceState = d.invoice.val.normal.invoiceState
    rw [h.invoice]
  have hpublished : a.updatedArguments.isSome = b.updatedArguments.isSome := by
    rw [← updatedArguments_isSome a, ← updatedArguments_isSome b, hab]
  rcases perform_eq_ok hok with ⟨harg, rfl⟩ | ⟨arguments, s, harg, hsettle, hinvoice, hmaintain⟩
  · rw [harg, Option.isSome_none, eq_comm, Option.isSome_eq_false_iff,
      Option.isNone_iff_eq_none] at hpublished
    refine ⟨d.update b.body, ?_, hbody, h.roles⟩
    rw [SimpleInvoice.perform, hpublished]
    rfl
  · rw [harg, Option.isSome_some, eq_comm] at hpublished
    obtain ⟨arguments', harg'⟩ := Option.isSome_iff_exists.mp hpublished
    have hnext : (a.body c.invoice.val).next = (b.body d.invoice.val).next := by
      rw [← next_normal, hbody, next_normal]
    rw [hnext, hstate] at hsettle
    obtain ⟨tasks', htasks'⟩ : ∃ tasks', maintainTasksFor d.tasks
        ⟨d.invoice.id, (b.body d.invoice.val).inState s⟩
        (determineActorIfAny ⟨.EXECUTED, arguments'⟩) = .ok tasks' :=
      ⟨_, maintainTasksFor_eq rfl⟩
    refine ⟨⟨⟨d.invoice.id, (b.body d.invoice.val).inState s⟩, tasks'⟩, ?_, ?_, ?_⟩
    · rw [perform_eq harg', hsettle]
      dsimp only [Config.update]
      rw [htasks']
      rfl
    · rw [hinvoice]
      exact congrArg (fun invoice => { invoice with invoiceState := some s }) hbody
    · have hroles := taskRoles_maintainTasksFor (by rw [hinvoice]; rfl) hmaintain
      have hroles' := taskRoles_maintainTasksFor rfl htasks'
      rw [hroles, hroles', id_of_perform hok, h.roles]

theorem similar_bisimulation :
    Bisimulation SimpleInvoiceWorkFlow SimpleInvoiceWorkFlow
      (fun a b => a.normal = b.normal) Similar where
  enabled h hab := h.isEnabled hab
  ok h hab _ hok := h.perform hab hok
  error := by
    intro c d a b x h hab _ herror
    cases hperform : SimpleInvoice.perform d b with
    | error y => exact ⟨y, hperform⟩
    | ok d' =>
      obtain ⟨c', hok, -⟩ := h.symm.perform hab.symm hperform
      exact absurd (hok.symm.trans herror) (by simp)

/-- **Nothing else matters**: two configurations, however they came about, and two lists of steps
that differ in nothing the workflow reads, the state included. Either list is offered throughout if
the other one is; the same steps are committed, and the others throw. -/
theorem exec_of_normal {l l' : List Action}
    (hinvoice : c.invoice.val.normal = d.invoice.val.normal)
    (hroles : taskRoles c.tasks c.invoice.id = taskRoles d.tasks d.invoice.id)
    (hl : l.map Action.normal = l'.map Action.normal) :
    Option.Rel (fun r r' => Similar r.2 r'.2 ∧
        List.Forall₂ (fun p q => Similar p.1 q.1 ∧ p.2.normal = q.2.normal) r.1 r'.1)
      (exec SimpleInvoiceWorkFlow c l) (exec SimpleInvoiceWorkFlow d l') := by
  refine similar_bisimulation.exec ⟨hinvoice, hroles⟩ ?_
  rwa [← List.forall₂_eq_eq_eq, List.forall₂_map_left_iff, List.forall₂_map_right_iff] at hl

/-- Another invoice, at another time, of another type and amount, for another person. -/
def otherApproval : List Action :=
  [.initializeState, .setAmount (some ⟨999999, 2⟩), .setInvoiceType (some .EXPENSE),
    .complete none ⟨7⟩, .approveAsManager ⟨5⟩]

theorem exec_of_otherApproval :
    Option.Rel (fun r r' => Similar r.2 r'.2 ∧
        List.Forall₂ (fun p q => Similar p.1 q.1 ∧ p.2.normal = q.2.normal) r.1 r'.1)
      (exec SimpleInvoiceWorkFlow .fresh approval)
      (exec SimpleInvoiceWorkFlow ⟨⟨3, create "I-4"⟩, Table.empty⟩ otherApproval) :=
  exec_of_normal rfl rfl (by decide)

end SimpleInvoice

end WorkflowSketch
