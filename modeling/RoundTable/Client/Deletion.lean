import RoundTable.Client.Contract
import RoundTable.Contract.Deletion

set_option autoImplicit false

namespace RoundTable.Client

open Contract

section Deletion

variable {runtime : Runtime} {known : Set PublicKey} {owner : PublicKey}

/-- No step after the deletion has used the table, and from the ledger on, until the table is created
again, every step that uses it fails and the client reads no data of it. -/
structure DeletionFinal (runtime : Runtime) (known : Set PublicKey) (owner : PublicKey)
    (after : List Step) (ledger : Ledger) : Prop where
  unused : ∀ step ∈ after, step.usesTable (tableAddress runtime PROGRAM_ID owner) = false
  gone : ∀ (later : List (List Step)) (started : List Step) (middle : Ledger),
    (∀ transaction ∈ later ++ [started], ∀ step ∈ transaction,
      step.Genuine runtime PROGRAM_ID known) →
    let reached := (chain runtime PROGRAM_ID).run ledger later
    executeAll runtime PROGRAM_ID reached.1 started = some middle →
      (∀ step ∈ reached.2 ++ started, ∀ closed,
        step.asks (tableAddress runtime PROGRAM_ID owner) ≠ some (.InitTable closed)) →
      (∀ step : Step, step.usesTable (tableAddress runtime PROGRAM_ID owner) = true →
        step.execute runtime PROGRAM_ID middle = none) ∧
      ∀ view, getTableData runtime reached.1 owner ≠ .ok (some view)

/-- A deletion is final exactly when no later step of its transaction uses the table or sends
lamports to its address. -/
theorem deletion_final_iff (documented : runtime.Documented)
    (distinct : runtime.Distinct PROGRAM_ID known) (ownerKnown : owner ∈ known)
    {initial : Ledger} (unused : Unused runtime PROGRAM_ID known initial)
    {earlier : List (List Step)} {before after : List Step} {delete : Step}
    (genuine : ∀ transaction ∈ earlier ++ [before ++ delete :: after], ∀ step ∈ transaction,
      step.Genuine runtime PROGRAM_ID known)
    (deletes : delete.asks (tableAddress runtime PROGRAM_ID owner) = some .DeleteTable)
    {committed : Ledger}
    (executed : executeAll runtime PROGRAM_ID ((chain runtime PROGRAM_ID).run initial earlier).1
      (before ++ delete :: after) = some committed) :
    DeletionFinal runtime known owner after committed.purge ↔
      ∀ step ∈ after, step.usesTable (tableAddress runtime PROGRAM_ID owner) = false ∧
        step.funds (tableAddress runtime PROGRAM_ID owner) = false := by
  have within : (Place.table owner).Within known := ownerKnown
  have fits := chain_fits documented distinct within
    (fun transaction member => genuine transaction (List.mem_append_left _ member))
    (.inl (unused _ within))
  have drained (notUsed : ∀ step ∈ after,
      step.usesTable (tableAddress runtime PROGRAM_ID owner) = false) :=
    executeAll_drained documented distinct ownerKnown (by decide)
      (genuine (before ++ delete :: after) (by simp)) fits deletes notUsed executed
  constructor
  · intro final step member
    refine ⟨final.unused step member, ?_⟩
    obtain ⟨table, left⟩ := drained final.unused
    by_contra paid
    have funded := left.funded.mpr ⟨step, member, by simpa using paid⟩
    have kept := Ledger.purge_of_funded funded
    -- the data are still there, and are read
    obtain ⟨-, unread⟩ := final.gone [] [] committed.purge (by simp) rfl (by simp)
    have read := getTableData_of_serialize (kept ▸ left.data) (kept ▸ funded)
    exact unread _ read
  · intro alone
    have notUsed := fun step member => (alone step member).1
    obtain ⟨table, left⟩ := drained notUsed
    have poor : (committed (tableAddress runtime PROGRAM_ID owner)).lamports = 0 := by
      by_contra rich
      obtain ⟨step, member, paid⟩ := left.funded.mp (Nat.pos_of_ne_zero rich)
      simp [(alone step member).2] at paid
    have empty : (committed.purge (tableAddress runtime PROGRAM_ID owner)).data = [] := by
      rw [Ledger.purge, if_pos poor]
      rfl
    refine ⟨notUsed, ?_⟩
    intro later started middle genuineLater reached executedLater notCreated
    obtain ⟨emptyReached, emptyMiddle⟩ := chain_stays_empty documented distinct ownerKnown
      genuineLater empty notCreated executedLater
    exact ⟨fun step uses => step.usesTable_fails documented emptyMiddle uses,
      getTableData_of_empty emptyReached⟩

def Sample.revival : List Step :=
  [.transfer Contract.Sample.owner Contract.Sample.table 8028892 [Contract.Sample.owner]]

def Sample.delete : Step := .call Contract.Sample.tableAccounts [1]

theorem Sample.revives : ∃ committed,
    executeAll Contract.Sample.runtime PROGRAM_ID
      ((chain Contract.Sample.runtime PROGRAM_ID).run Contract.Sample.funded
        [[.call Contract.Sample.tableAccounts [0, 0]]]).1 ([] ++ Sample.delete :: Sample.revival) =
      some committed ∧
    getTableData Contract.Sample.runtime committed.purge Contract.Sample.owner =
      .ok (some ⟨[], [], 0⟩) := by
  have runs : (executeAll Contract.Sample.runtime PROGRAM_ID
      ((chain Contract.Sample.runtime PROGRAM_ID).run Contract.Sample.funded
        [[.call Contract.Sample.tableAccounts [0, 0]]]).1
          ([] ++ Sample.delete :: Sample.revival)).any (fun committed =>
      getTableData Contract.Sample.runtime committed.purge Contract.Sample.owner =
        .ok (some ⟨[], [], 0⟩)) = true := by decide +kernel
  obtain ⟨committed, executed, read⟩ := (Option.any_eq_true _ _).mp runs
  exact ⟨committed, executed, of_decide_eq_true read⟩

theorem deletion_not_final : ∃ committed,
    Sample.delete.asks (tableAddress Contract.Sample.runtime PROGRAM_ID Contract.Sample.owner) =
      some .DeleteTable ∧
    executeAll Contract.Sample.runtime PROGRAM_ID
      ((chain Contract.Sample.runtime PROGRAM_ID).run Contract.Sample.funded
        [[.call Contract.Sample.tableAccounts [0, 0]]]).1 ([] ++ Sample.delete :: Sample.revival) =
      some committed ∧
    ¬DeletionFinal Contract.Sample.runtime {key | key ∈ Contract.Sample.keys} Contract.Sample.owner
      Sample.revival committed.purge := by
  obtain ⟨committed, executed, read⟩ := Sample.revives
  refine ⟨committed, by decide +kernel, executed, fun final => ?_⟩
  exact (final.gone [] [] committed.purge (by simp) rfl (by simp)).2 _ read

theorem deletion_final_iff_revival : ∃ committed,
    executeAll Contract.Sample.runtime PROGRAM_ID
      ((chain Contract.Sample.runtime PROGRAM_ID).run Contract.Sample.funded
        [[.call Contract.Sample.tableAccounts [0, 0]]]).1 ([] ++ Sample.delete :: Sample.revival) =
      some committed ∧
    (DeletionFinal Contract.Sample.runtime {key | key ∈ Contract.Sample.keys} Contract.Sample.owner
        Sample.revival committed.purge ↔
      ∀ step ∈ Sample.revival,
        step.usesTable (tableAddress Contract.Sample.runtime PROGRAM_ID Contract.Sample.owner) =
            false ∧
          step.funds (tableAddress Contract.Sample.runtime PROGRAM_ID Contract.Sample.owner) =
            false) := by
  obtain ⟨committed, executed, -⟩ := Sample.revives
  have genuine : ∀ transaction ∈ [[.call Contract.Sample.tableAccounts [0, 0]]] ++
      [[] ++ Sample.delete :: Sample.revival], ∀ step ∈ transaction,
        step.Genuine Contract.Sample.runtime PROGRAM_ID {key | key ∈ Contract.Sample.keys} := by
    simp only [Sample.revival, List.cons_append, List.nil_append, List.forall_mem_cons,
      List.not_mem_nil, IsEmpty.forall_iff, implies_true, and_true]
    exact ⟨Contract.Sample.table_genuine _, Contract.Sample.table_genuine _, trivial⟩
  exact ⟨committed, executed, deletion_final_iff Contract.Sample.runtime_documented
    Contract.Sample.distinct (by simp [Contract.Sample.keys]) Contract.Sample.unused genuine
    (by decide +kernel) executed⟩

end Deletion

end RoundTable.Client
