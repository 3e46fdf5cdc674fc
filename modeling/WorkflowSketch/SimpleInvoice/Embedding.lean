import WorkflowSketch.SimpleInvoice.Projection

/-!
# From one invoice back to the whole system

The converse of the projection: what an invoice can do in its workflow it can do in any store, and
the other invoices do not notice.

* `AgreeElsewhere`: two stores that differ in one invoice and its tasks only.
* **`embedding_of_run`**: a run of the workflow of a stored invoice is one of the whole system.
* **`payment_of_taskRun`**: whatever became of the others, a stored invoice that was not discarded
  can end in `PAID`, by actions on it alone; a discarded one never does.
-/

namespace WorkflowSketch

open Lib Lib.Transact

namespace SimpleInvoice

open SimpleInvoiceTaskRepository SimpleInvoiceTaskService

variable {store store' store'' : Store} {row : Row SimpleInvoice} {invoice : Nat} {c c' : Config}

/-! ## One invoice in a store -/

/-- The same invoices, of which only the one differs, and its tasks. -/
structure AgreeElsewhere (invoice : Nat) (store store' : Store) : Prop where
  ids : store'.invoices.rows.map Row.id = store.invoices.rows.map Row.id
  rows : ∀ r : Row SimpleInvoice, r.id ≠ invoice →
    (r ∈ store'.invoices.rows ↔ r ∈ store.invoices.rows)
  tasks : ∀ other, other ≠ invoice →
    findByInvoice store'.tasks other = findByInvoice store.tasks other

theorem AgreeElsewhere.refl (invoice : Nat) (store : Store) :
    AgreeElsewhere invoice store store := ⟨rfl, fun _ _ => Iff.rfl, fun _ _ => rfl⟩

theorem AgreeElsewhere.trans (h : AgreeElsewhere invoice store store')
    (h' : AgreeElsewhere invoice store' store'') : AgreeElsewhere invoice store store'' :=
  ⟨h'.ids.trans h.ids, fun r hr => (h'.rows r hr).trans (h.rows r hr),
    fun other hother => (h'.tasks other hother).trans (h.tasks other hother)⟩

/-- A step on an invoice changes nothing elsewhere. -/
theorem AgreeElsewhere.act {own : Action}
    (hok : SimpleInvoice.perform ⟨row, store.tasks⟩ own = .ok c) :
    AgreeElsewhere row.id store
      ⟨store.invoices.modify row.id fun _ => c.invoice.val, c.tasks⟩ where
  ids := Table.ids_modify _ _ _
  rows r hr := by
    rw [Table.rows_modify, List.mem_map]
    constructor
    · rintro ⟨r₀, hr₀, rfl⟩
      by_cases hid : r₀.id = row.id
      · rw [if_pos hid] at hr
        exact absurd hid hr
      · rwa [if_neg hid]
    · intro hmem
      exact ⟨r, hmem, if_neg hr⟩
  tasks other hother := by
    refine select_perform hok fun task htask => ?_
    rw [htask]
    simpa using Ne.symm hother

/-- The configuration, as it is in the store; elsewhere the store is as it was before. -/
structure Hosts (invoice : Nat) (before : Store) (config : Config) (store : Store) : Prop where
  mem : config.invoice ∈ store.invoices.rows
  id_eq : config.invoice.id = invoice
  tasks : config.tasks = store.tasks
  elsewhere : AgreeElsewhere invoice before store

/-- **A step of its workflow is a step of the whole system.** -/
theorem hosts_simulation (invoice : Nat) (before : Store) :
    Simulation SimpleInvoiceWorkFlow SimpleInvoiceTaskSystem
      (fun _ own => some (.onInvoices (.act invoice own))) (Hosts invoice before) where
  step := by
    intro c c' store own action ⟨hmem, hid, htasks, helsewhere⟩ hen hok hlabel
    obtain rfl := Option.some.inj hlabel
    subst hid
    have hconfig : SimpleInvoice.perform ⟨c.invoice, store.tasks⟩ own = .ok c' := by
      rw [← htasks]
      exact hok
    have hstore := (Store.perform_act_eq_ok_iff hmem).mpr ⟨c', hconfig, rfl⟩
    have hid : c'.invoice.id = c.invoice.id := id_of_perform hok
    refine ⟨?_, _, mapError_eq_ok_iff.mpr hstore, ?_, hid, rfl,
      helsewhere.trans (AgreeElsewhere.act hconfig)⟩
    · show store.isEnabled (.act c.invoice.id own) = true
      rw [Store.isEnabled, Table.get?_eq_some_iff.mpr ⟨hmem, rfl⟩]
      exact hen
    · have hrow : c'.invoice = ⟨c.invoice.id, c'.invoice.val⟩ := Row.ext hid rfl
      rw [hrow]
      exact Table.mem_modify_iff.mpr ⟨c.invoice, hmem, rfl, rfl⟩
  skip _ _ _ hlabel := absurd hlabel (by simp)

/-- The steps of a history on one invoice, as a user does them. -/
def actions (invoice : Nat) (tr : Trace Config Action) : List UserAction :=
  tr.map fun step => .onInvoices (.act invoice step.2)

theorem exists_embedding {tr' : Trace Config Action} (hrow : row ∈ store.invoices.rows)
    (h : Run SimpleInvoiceWorkFlow ⟨row, store.tasks⟩ tr' c) :
    ∃ tr store', Run SimpleInvoiceTaskSystem store tr store' ∧
      tr.map Prod.snd = actions row.id tr' ∧ Hosts row.id store c store' := by
  obtain ⟨tr, store', hrun, hhosts, hmatch⟩ := (hosts_simulation row.id store).run
    ⟨hrow, rfl, rfl, AgreeElsewhere.refl row.id store⟩ h
  refine ⟨tr, store', hrun, ?_, hhosts⟩
  have hlabelled : (labelled (fun _ own => some (UserAction.onInvoices (.act row.id own)))
      tr').map Prod.snd = actions row.id tr' := by
    simp [labelled, actions]
  exact (map_snd_eq_of_forall₂ hmatch).trans hlabelled

/-- **One invoice among any others**: a run of the workflow of a stored invoice, next to the tasks
of all, is a run of the whole system, which ends with the same invoice and the same tasks. Elsewhere
the store is left as it was, whatever it was. -/
theorem embedding_of_run {tr' : Trace Config Action} (hrow : row ∈ store.invoices.rows)
    (h : Run SimpleInvoiceWorkFlow ⟨row, store.tasks⟩ tr' c) :
    ∃ tr store', Run SimpleInvoiceTaskSystem store tr store' ∧
      tr.map Prod.snd = actions row.id tr' ∧ c.invoice ∈ store'.invoices.rows ∧
      c.tasks = store'.tasks ∧ AgreeElsewhere row.id store store' := by
  obtain ⟨tr, store', hrun, hactions, hhosts⟩ := exists_embedding hrow h
  exact ⟨tr, store', hrun, hactions, hhosts.mem, hhosts.tasks, hhosts.elsewhere⟩

/-- The completed one of two invoices is approved; the other one is left as it is. -/
theorem embedding_of_twoInvoices :
    ∃ tr store', Run SimpleInvoiceTaskSystem
        ((exec SimpleInvoiceSystem .empty twoInvoices).get (by decide)).2 tr store' ∧
      tr.map Prod.snd = [.onInvoices (.act 0 (.approveAsManager ⟨2⟩))] ∧
      AgreeElsewhere 0 ((exec SimpleInvoiceSystem .empty twoInvoices).get (by decide)).2
        store' := by
  obtain ⟨tr, store', hrun, hactions, -, -, helsewhere⟩ := embedding_of_run
    (show completedInvoice ∈
      ((exec SimpleInvoiceSystem .empty twoInvoices).get (by decide)).2.invoices.rows by decide)
    (run_exec (l := [.approveAsManager ⟨2⟩]) (by decide))
  exact ⟨tr, store', hrun, hactions.trans (by decide), helsewhere⟩

/-! ## The payment among others -/

/-- **Whatever became of the others**: in every store reached an invoice that was not discarded can
end in `PAID`, at once if it is there, by actions on it that leave the store as it is elsewhere; a
discarded one is never in `PAID`, whatever users do. -/
theorem payment_of_taskRun {tr : Trace Store UserAction}
    (h : Run SimpleInvoiceTaskSystem .empty tr store) (hrow : row ∈ store.invoices.rows) :
    (row.val.discardedOn = none → ∃ tr' store' row', Run SimpleInvoiceTaskSystem store tr' store' ∧
      (∀ step ∈ tr', ∃ own, step.2 = .onInvoices (.act row.id own)) ∧
      row' ∈ store'.invoices.rows ∧ row'.id = row.id ∧ row'.val.invoiceState = some .PAID ∧
      AgreeElsewhere row.id store store') ∧
    (row.val.discardedOn ≠ none → ∀ tr' store' row', Run SimpleInvoiceTaskSystem store tr' store' →
      row' ∈ store'.invoices.rows → row'.id = row.id →
      row'.val.invoiceState ≠ some .PAID) := by
  obtain ⟨n, tr', c, hrun, hpart, -⟩ := exists_projection h (isStored_of_mem hrow)
  obtain rfl : c.invoice = row := Table.eq_of_id hpart.mem hrow hpart.id_eq
  obtain ⟨ha, -⟩ := attainable_of_run (Config.start_isCreated _ n) hrun
  constructor
  · intro hd
    obtain ⟨tr', c', hown, hpaid⟩ :=
      Attainable.exists_payment (c := ⟨c.invoice, store.tasks⟩) ha hd
    obtain ⟨tr'', store', hrun', hactions, hhosts⟩ := exists_embedding hrow hown
    refine ⟨tr'', store', c'.invoice, hrun', fun step hstep => ?_, hhosts.mem, hhosts.id_eq,
      hpaid, hhosts.elsewhere⟩
    have hmem : step.2 ∈ actions c.invoice.id tr' := hactions ▸ List.mem_map_of_mem hstep
    obtain ⟨own, -, howns⟩ := List.mem_map.mp hmem
    exact ⟨own.2, howns.symm⟩
  · intro hd tr' store' row' hrun' hrow' hid
    have hfirst : IsPart c.invoice.id store ⟨c.invoice, store.tasks⟩ := ⟨hrow, rfl, rfl⟩
    obtain ⟨tr'', c', hown, hpart', -⟩ := (userInvoice_simulation c.invoice.id).run hfirst hrun'
    obtain rfl : c'.invoice = row' :=
      Table.eq_of_id hpart'.mem hrow' (hpart'.id_eq.trans hid.symm)
    exact ha.wellFormed.not_paid (c := ⟨c.invoice, store.tasks⟩) hd hown

/-- The invoice without a state, next to one that is completed. -/
theorem payment_of_throughTask :
    ∃ tr' store' row', Run SimpleInvoiceTaskSystem
        ((exec SimpleInvoiceTaskSystem .empty
          (throughTask ++ [.onInvoices (.create "I-2")])).get (by decide)).2 tr' store' ∧
      row' ∈ store'.invoices.rows ∧ row'.id = 1 ∧ row'.val.invoiceState = some .PAID := by
  obtain ⟨tr', store', row', hrun, -, hrow', hid, hpaid, -⟩ :=
    (payment_of_taskRun (run_exec (by decide))
      (show (⟨1, create "I-2"⟩ : Row SimpleInvoice) ∈ ((exec SimpleInvoiceTaskSystem .empty
        (throughTask ++ [.onInvoices (.create "I-2")])).get (by decide)).2.invoices.rows by
          decide)).1 rfl
  exact ⟨tr', store', row', hrun, hrow', hid, hpaid⟩

end SimpleInvoice

end WorkflowSketch
