import WorkflowSketch.Lib.Table
import WorkflowSketch.Lib.Transact
import WorkflowSketch.SimpleInvoice.Entity

/-!
# The stored invoices and their numbers (`SimpleInvoiceRepository.java`)

`findByInvoiceNumber` expects one invoice of a number at most. `findOrCreate` looks before it
creates; `create`, on the menu, does not, and the number has no `@Unique` as the name of a
`SimpleObject` has.

* `RepositoryService`: what the repository relies on of the framework's service.
* `SimpleInvoiceRepositorySystem`: calls of the repository in any order.
* `findOrCreate_eq_ok`: what `findOrCreate` returns, on any store.
* **`numbersIdentify_iff_of_run`**: the numbers identify the invoices exactly in those runs that
  create no number a second time.
-/

namespace WorkflowSketch

open Lib Lib.Transact

/-- `RepositoryService`, as far as the repository relies on it; `ε` are its exceptions. -/
structure RepositoryService (ε : Type*) where
  /-- The one instance that matches a query: null if there is none. -/
  uniqueMatch : List (Row SimpleInvoice) → Except ε (Option (Row SimpleInvoice))
  /-- What `persist` throws for a null in a column that allows none. -/
  nullNotAllowed : ε
  uniqueMatch_nil : uniqueMatch [] = .ok none
  uniqueMatch_singleton : ∀ invoice, uniqueMatch [invoice] = .ok (some invoice)
  uniqueMatch_several : ∀ invoices, 1 < invoices.length → ∃ x, uniqueMatch invoices = .error x

namespace SimpleInvoiceRepository

variable {ε : Type*} (repositoryService : RepositoryService ε)

/-- `findByInvoiceNumber`: `invoiceNumber == :invoiceNumber`. -/
def findByInvoiceNumber (invoices : Table SimpleInvoice) (invoiceNumber : Option String) :
    Except ε (Option (Row SimpleInvoice)) :=
  repositoryService.uniqueMatch
    (invoices.select fun invoice => some invoice.invoiceNumber == invoiceNumber)

/-- `create`: the store with the new invoice, and the invoice; the column of its number allows no
null. -/
def create (invoices : Table SimpleInvoice) (invoiceNumber : Option String) :
    Except ε (Table SimpleInvoice × Row SimpleInvoice) :=
  match invoiceNumber with
  | none => .error repositoryService.nullNotAllowed
  | some invoiceNumber =>
    let simpleInvoice := SimpleInvoice.create invoiceNumber
    .ok (invoices.insert simpleInvoice, ⟨invoices.nextId, simpleInvoice⟩)

/-- `findOrCreate`. -/
def findOrCreate (invoices : Table SimpleInvoice) (invoiceNumber : Option String) :
    Except ε (Table SimpleInvoice × Row SimpleInvoice) := do
  match ← findByInvoiceNumber repositoryService invoices invoiceNumber with
  | none => create repositoryService invoices invoiceNumber
  | some simpleInvoice => return (invoices, simpleInvoice)

/-- A call of the repository, with an invoice number or null. -/
inductive RepositoryAction where
  | findByInvoiceNumber (invoiceNumber : Option String)
  | create (invoiceNumber : Option String)
  | findOrCreate (invoiceNumber : Option String)
  deriving DecidableEq, Repr

/-- What a call makes of the stored invoices. -/
def perform (invoices : Table SimpleInvoice) : RepositoryAction → Except ε (Table SimpleInvoice)
  | .findByInvoiceNumber invoiceNumber =>
    (findByInvoiceNumber repositoryService invoices invoiceNumber).map fun _ => invoices
  | .create invoiceNumber => (create repositoryService invoices invoiceNumber).map Prod.fst
  | .findOrCreate invoiceNumber =>
    (findOrCreate repositoryService invoices invoiceNumber).map Prod.fst

/-- **The repository**: any call at any time. -/
def SimpleInvoiceRepositorySystem : System (Table SimpleInvoice) RepositoryAction ε where
  enabled _ _ := true
  perform := perform repositoryService

/-! ## What the calls return -/

variable {repositoryService} {invoices invoices' : Table SimpleInvoice}
  {invoice : Row SimpleInvoice} {number : Option String} {action : RepositoryAction}
  {tr : Trace (Table SimpleInvoice) RepositoryAction}

/-- `uniqueMatch` returns if there is one instance at most, and returns that. -/
theorem uniqueMatch_eq_ok_iff {l : List (Row SimpleInvoice)} {o : Option (Row SimpleInvoice)} :
    repositoryService.uniqueMatch l = .ok o ↔ l = o.toList := by
  constructor
  · intro h
    cases l with
    | nil => rw [repositoryService.uniqueMatch_nil] at h; cases h; rfl
    | cons r l =>
      cases l with
      | nil => rw [repositoryService.uniqueMatch_singleton] at h; cases h; rfl
      | cons s l =>
        obtain ⟨x, hx⟩ := repositoryService.uniqueMatch_several (r :: s :: l) (by simp)
        rw [hx] at h
        exact absurd h (by simp)
  · rintro rfl
    cases o with
    | none => exact repositoryService.uniqueMatch_nil
    | some r => exact repositoryService.uniqueMatch_singleton r

theorem findByInvoiceNumber_eq_ok_iff {o : Option (Row SimpleInvoice)} :
    findByInvoiceNumber repositoryService invoices number = .ok o ↔
      (invoices.select fun invoice => some invoice.invoiceNumber == number) = o.toList :=
  uniqueMatch_eq_ok_iff

theorem create_eq_ok
    (h : create repositoryService invoices number = .ok (invoices', invoice)) :
    ∃ invoiceNumber, number = some invoiceNumber ∧
      invoices' = invoices.insert (SimpleInvoice.create invoiceNumber) ∧
      invoice = ⟨invoices.nextId, SimpleInvoice.create invoiceNumber⟩ := by
  cases number with
  | none => exact absurd h (by simp [create])
  | some invoiceNumber => cases h; exact ⟨invoiceNumber, rfl, rfl, rfl⟩

/-- **What `findOrCreate` returns**: a stored invoice of that number, or a new one where there was
none. -/
theorem findOrCreate_eq_ok
    (h : findOrCreate repositoryService invoices number = .ok (invoices', invoice)) :
    (invoices' = invoices ∧ invoice ∈ invoices.rows ∧ some invoice.val.invoiceNumber = number) ∨
      ∃ invoiceNumber, number = some invoiceNumber ∧
        (∀ r ∈ invoices.rows, r.val.invoiceNumber ≠ invoiceNumber) ∧
        invoices' = invoices.insert (SimpleInvoice.create invoiceNumber) ∧
        invoice = ⟨invoices.nextId, SimpleInvoice.create invoiceNumber⟩ := by
  unfold findOrCreate at h
  cases hfind : findByInvoiceNumber repositoryService invoices number with
  | error x => rw [hfind] at h; exact absurd h (by simp [bind, Except.bind])
  | ok found =>
    rw [hfind] at h
    have hselect := findByInvoiceNumber_eq_ok_iff.mp hfind
    cases found with
    | none =>
      obtain ⟨invoiceNumber, rfl, rfl, rfl⟩ := create_eq_ok h
      refine Or.inr ⟨invoiceNumber, rfl, fun r hr hnumber => ?_, rfl, rfl⟩
      have hmem : r ∈ invoices.select fun r => some r.invoiceNumber == some invoiceNumber :=
        Table.mem_select.mpr ⟨hr, by simp [hnumber]⟩
      rw [hselect] at hmem
      exact absurd hmem List.not_mem_nil
    | some simpleInvoice =>
      cases h
      have hmem : invoice ∈ invoices.select fun r => some r.invoiceNumber == number := by
        rw [hselect]
        exact List.mem_cons_self
      obtain ⟨hrow, hnumber⟩ := Table.mem_select.mp hmem
      exact Or.inl ⟨rfl, hrow, eq_of_beq hnumber⟩

/-- The step creates an invoice under a number that is stored already. -/
def CreatesStored (step : Table SimpleInvoice × RepositoryAction) : Prop :=
  ∃ invoice ∈ step.1.rows, step.2 = .create (some invoice.val.invoiceNumber)

instance (step : Table SimpleInvoice × RepositoryAction) : Decidable (CreatesStored step) :=
  inferInstanceAs (Decidable (∃ invoice ∈ step.1.rows, _))

/-- **Everything a call can do to the stored invoices.** -/
theorem perform_eq_ok (h : perform repositoryService invoices action = .ok invoices') :
    (invoices' = invoices ∧ ¬ CreatesStored (invoices, action)) ∨
      ∃ invoiceNumber, invoices' = invoices.insert (SimpleInvoice.create invoiceNumber) ∧
        (CreatesStored (invoices, action) ↔
          ∃ r ∈ invoices.rows, r.val.invoiceNumber = invoiceNumber) := by
  cases action with
  | findByInvoiceNumber number =>
    obtain ⟨found, -, rfl⟩ := map_eq_ok_iff.mp h
    exact Or.inl ⟨rfl, by simp [CreatesStored]⟩
  | create number =>
    obtain ⟨⟨invoices', invoice⟩, hcreate, rfl⟩ := map_eq_ok_iff.mp h
    obtain ⟨invoiceNumber, rfl, rfl, -⟩ := create_eq_ok hcreate
    exact Or.inr ⟨invoiceNumber, rfl, by simp [CreatesStored, eq_comm]⟩
  | findOrCreate number =>
    obtain ⟨⟨invoices', invoice⟩, hcall, rfl⟩ := map_eq_ok_iff.mp h
    rcases findOrCreate_eq_ok hcall with ⟨rfl, -⟩ | ⟨invoiceNumber, rfl, hnone, rfl, -⟩
    · exact Or.inl ⟨rfl, by simp [CreatesStored]⟩
    · exact Or.inr ⟨invoiceNumber, rfl, by simpa [CreatesStored] using hnone⟩

/-! ## In a run -/

/-- The numbers identify the stored invoices, after the calls of a trace. -/
structure NumbersIdentify (repositoryService : RepositoryService ε)
    (tr : Trace (Table SimpleInvoice) RepositoryAction) (invoices : Table SimpleInvoice) :
    Prop where
  /-- No two stored invoices have the same number. -/
  unique : invoices.IsKey SimpleInvoice.invoiceNumber
  /-- `findByInvoiceNumber` returns the first invoice stored under a number, or null. -/
  found : ∀ number, findByInvoiceNumber repositoryService invoices number =
    .ok (invoices.rows.find? fun invoice => some invoice.val.invoiceNumber == number)
  /-- What `findOrCreate` has returned it returns again, and stores nothing. -/
  again : ∀ before number, (before, .findOrCreate number) ∈ tr → ∀ after invoice,
    findOrCreate repositoryService before number = .ok (after, invoice) →
      findOrCreate repositoryService invoices number = .ok (invoices, invoice)

theorem findByInvoiceNumber_eq (h : invoices.IsKey SimpleInvoice.invoiceNumber) :
    findByInvoiceNumber repositoryService invoices number =
      .ok (invoices.rows.find? fun invoice => some invoice.val.invoiceNumber == number) := by
  have hkey : invoices.IsKey fun invoice => some invoice.invoiceNumber :=
    fun r hr s hs hnumber => h r hr s hs (Option.some.inj hnumber)
  exact findByInvoiceNumber_eq_ok_iff.mpr (hkey.select_eq number)

/-- An invoice whose number no other one has is found again. -/
theorem findOrCreate_of_mem (h : invoices.IsKey SimpleInvoice.invoiceNumber)
    (hrow : invoice ∈ invoices.rows) :
    findOrCreate repositoryService invoices (some invoice.val.invoiceNumber) =
      .ok (invoices, invoice) := by
  obtain ⟨found, hfind⟩ : ∃ found, invoices.rows.find? (fun r =>
      some r.val.invoiceNumber == some invoice.val.invoiceNumber) = some found :=
    Option.isSome_iff_exists.mp (List.find?_isSome.mpr ⟨invoice, hrow, by simp⟩)
  have hnumber : found.val.invoiceNumber = invoice.val.invoiceNumber := by
    simpa using List.find?_some hfind
  obtain rfl := h found (List.mem_of_find?_eq_some hfind) invoice hrow hnumber
  rw [findOrCreate, findByInvoiceNumber_eq h, hfind]
  rfl

/-- A call keeps the stored invoices. -/
theorem mem_rows_of_perform (h : perform repositoryService invoices action = .ok invoices')
    (hrow : invoice ∈ invoices.rows) : invoice ∈ invoices'.rows := by
  rcases perform_eq_ok h with ⟨rfl, -⟩ | ⟨invoiceNumber, rfl, -⟩
  · exact hrow
  · exact List.mem_append_left _ hrow

/-- **One call** keeps the numbers distinct exactly if it does not create a stored one. -/
theorem isKey_perform_iff (h : perform repositoryService invoices action = .ok invoices') :
    invoices'.IsKey SimpleInvoice.invoiceNumber ↔
      invoices.IsKey SimpleInvoice.invoiceNumber ∧ ¬ CreatesStored (invoices, action) := by
  rcases perform_eq_ok h with ⟨rfl, hnot⟩ | ⟨invoiceNumber, rfl, hiff⟩
  · simp [hnot]
  · rw [Table.isKey_insert_iff, hiff]
    simp [SimpleInvoice.create]

theorem isKey_iff_of_run
    (h : Run (SimpleInvoiceRepositorySystem repositoryService) .empty tr invoices) :
    invoices.IsKey SimpleInvoice.invoiceNumber ↔ ∀ step ∈ tr, ¬ CreatesStored step := by
  refine h.keepTrace (P := fun tr invoices =>
    invoices.IsKey SimpleInvoice.invoiceNumber ↔ ∀ step ∈ tr, ¬ CreatesStored step) ?_ ?_
  · intro tr invoices action invoices' hiff _ hok
    rw [isKey_perform_iff hok, hiff, List.forall_mem_append, List.forall_mem_singleton]
  · exact iff_of_true Table.isKey_empty (by simp)

/-- What `findOrCreate` has returned in a run is stored under the number it was called with. -/
theorem mem_rows_of_run
    (h : Run (SimpleInvoiceRepositorySystem repositoryService) .empty tr invoices) :
    ∀ before number, (before, .findOrCreate number) ∈ tr → ∀ after invoice,
      findOrCreate repositoryService before number = .ok (after, invoice) →
        invoice ∈ invoices.rows ∧ some invoice.val.invoiceNumber = number := by
  refine h.keepTrace (P := fun tr invoices =>
    ∀ before number, (before, .findOrCreate number) ∈ tr → ∀ after invoice,
      findOrCreate repositoryService before number = .ok (after, invoice) →
        invoice ∈ invoices.rows ∧ some invoice.val.invoiceNumber = number) ?_ (by simp)
  intro tr invoices action invoices' hstored _ hok before number hstep after invoice hcall
  rcases List.mem_append.mp hstep with hstep | hstep
  · obtain ⟨hrow, hnumber⟩ := hstored before number hstep after invoice hcall
    exact ⟨mem_rows_of_perform hok hrow, hnumber⟩
  · -- the last call of the run
    cases List.mem_singleton.mp hstep
    obtain ⟨⟨_, _⟩, hcall', rfl⟩ := map_eq_ok_iff.mp hok
    cases hcall.symm.trans hcall'
    rcases findOrCreate_eq_ok hcall with ⟨rfl, hrow, hnumber⟩ | ⟨invoiceNumber, rfl, -, rfl, rfl⟩
    · exact ⟨hrow, hnumber⟩
    · exact ⟨List.mem_append_right _ List.mem_cons_self, rfl⟩

/-- **When the numbers identify the invoices**: after a run, exactly if no step of it creates an
invoice under a number that is stored already. -/
theorem numbersIdentify_iff_of_run
    (h : Run (SimpleInvoiceRepositorySystem repositoryService) .empty tr invoices) :
    NumbersIdentify repositoryService tr invoices ↔ ∀ step ∈ tr, ¬ CreatesStored step := by
  rw [← isKey_iff_of_run h]
  refine ⟨NumbersIdentify.unique, fun hkey => ⟨hkey, fun number => findByInvoiceNumber_eq hkey, ?_⟩⟩
  intro before number hstep after invoice hcall
  obtain ⟨hrow, rfl⟩ := mem_rows_of_run h before number hstep after invoice hcall
  exact findOrCreate_of_mem hkey hrow

/-- A service whose exceptions say nothing. -/
def plainService : RepositoryService Unit where
  uniqueMatch
    | [] => .ok none
    | [invoice] => .ok (some invoice)
    | _ :: _ :: _ => .error ()
  nullNotAllowed := ()
  uniqueMatch_nil := rfl
  uniqueMatch_singleton _ := rfl
  uniqueMatch_several
    | _ :: _ :: _, _ => ⟨(), rfl⟩

/-- Two invoices under one number. -/
def createdTwice : List RepositoryAction := [.create (some "I-1"), .create (some "I-1")]

theorem not_numbersIdentify_of_createdTwice :
    ¬ ∀ (repositoryService : RepositoryService Unit)
      (tr : Trace (Table SimpleInvoice) RepositoryAction) (invoices : Table SimpleInvoice),
      Run (SimpleInvoiceRepositorySystem repositoryService) .empty tr invoices →
        NumbersIdentify repositoryService tr invoices := by
  intro h
  have hrun := run_exec (S := SimpleInvoiceRepositorySystem plainService) (s := .empty)
    (l := createdTwice) (by decide)
  have hone := (h plainService _ _ hrun).unique ⟨0, SimpleInvoice.create "I-1"⟩ (by decide)
    ⟨1, SimpleInvoice.create "I-1"⟩ (by decide) rfl
  exact absurd (congrArg Row.id hone) (by decide)

/-- Two invoices, one of which is looked up again, and a call without a number. -/
def lookedUp : List RepositoryAction :=
  [.create (some "I-1"), .findOrCreate (some "I-2"), .findOrCreate (some "I-1"),
    .findByInvoiceNumber (some "I-2"), .findOrCreate none]

theorem numbersIdentify_of_lookedUp :
    NumbersIdentify plainService
      ((exec (SimpleInvoiceRepositorySystem plainService) .empty lookedUp).get (by decide)).1
      ((exec (SimpleInvoiceRepositorySystem plainService) .empty lookedUp).get (by decide)).2 :=
  (numbersIdentify_iff_of_run (run_exec (by decide))).mpr (by decide)

end SimpleInvoiceRepository

end WorkflowSketch
