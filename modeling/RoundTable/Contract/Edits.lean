import RoundTable.Contract.Authority
import RoundTable.Contract.Transactions

set_option autoImplicit false

namespace RoundTable.Contract

namespace Bytes

variable {n : Nat}

def strBufAdd (array : Bytes n) (sRaw : Bytes 128) : Except Failure (Bytes n) :=
  match done : Contract.strBufAdd array.toList sRaw.toList with
  | .ok region => .ok ⟨region, (length_of_strBufAdd done).trans array.length_eq⟩
  | .error failure => .error failure

def strBufRm (array : Bytes n) (sRaw : Bytes 128) : Except Failure (Bytes n) :=
  match done : Contract.strBufRm array.toList sRaw.toList with
  | .ok region => .ok ⟨region, (length_of_strBufRm done).trans array.length_eq⟩
  | .error failure => .error failure

theorem map_toList_strBufAdd (array : Bytes n) (sRaw : Bytes 128) :
    (strBufAdd array sRaw).map Bytes.toList = Contract.strBufAdd array.toList sRaw.toList := by
  unfold strBufAdd
  split <;> simp_all [Except.map]

theorem map_toList_strBufRm (array : Bytes n) (sRaw : Bytes 128) :
    (strBufRm array sRaw).map Bytes.toList = Contract.strBufRm array.toList sRaw.toList := by
  unfold strBufRm
  split <;> simp_all [Except.map]

end Bytes

-- A name in an argument, behind which zeros follow. Names are lists of characters, so a script string
-- with half of a surrogate pair is none.
def padded (name : List Char) (short : (Utf8.encode name).length ≤ 128) : Bytes 128 where
  toList := Utf8.encode name ++ List.replicate (128 - (Utf8.encode name).length) 0
  length_eq := by rw [List.length_append, List.length_replicate]; omega

theorem padded_toList {name : List Char} (short : (Utf8.encode name).length ≤ 128) :
    (padded name short).toList =
      Utf8.encode (name ++ List.replicate (128 - (Utf8.encode name).length) Utf8.nul) := by
  rw [padded, Utf8.encode_append, Utf8.encode_nuls]

namespace TableData

def edit (table : TableData) : RoundNetInstruction → Except Failure TableData
  | .AddBootstrap bootstrap =>
    (Bytes.strBufAdd table.servers bootstrap).map fun servers => { table with servers }
  | .RemoveBootstrap bootstrap =>
    (Bytes.strBufRm table.servers bootstrap).map fun servers => { table with servers }
  | .AddChannelArgs channel =>
    (Bytes.strBufAdd table.channels channel).map fun channels => { table with channels }
  | .RemoveChannelArgs channel =>
    (Bytes.strBufRm table.channels channel).map fun channels => { table with channels }
  | _ => .ok table

-- The table after a run of edits, of which the failing ones leave it alone.
def after (table : TableData) (instructions : List RoundNetInstruction) : TableData :=
  instructions.foldl (fun table instruction => (table.edit instruction).toOption.getD table) table

theorem after_snoc (table : TableData) (instructions : List RoundNetInstruction)
    (instruction : RoundNetInstruction) :
    table.after (instructions ++ [instruction]) =
      ((table.after instructions).edit instruction).toOption.getD (table.after instructions) := by
  simp [after]

end TableData

structure OwnerCall (runtime : Runtime) (programId owner : PublicKey) where
  user : AccountInfo
  program : AccountInfo
  table : AccountInfo
  rest : List AccountInfo
  instruction : RoundNetInstruction
  isOwner : user.key = owner
  signed : user.isSigner = true
  isProgram : program.key = programId
  isTable : table.key = tableAddress runtime programId owner

namespace OwnerCall

variable {runtime : Runtime} {programId owner : PublicKey}

def accounts (call : OwnerCall runtime programId owner) : List AccountInfo :=
  call.user :: call.program :: call.table :: call.rest

def step (call : OwnerCall runtime programId owner) : Step :=
  .call call.accounts call.instruction.serialize

def outcome (call : OwnerCall runtime programId owner) (ledger : Ledger) :
    Except Failure (Unit × Ledger) :=
  (processInstruction runtime programId call.accounts call.instruction.serialize).run ledger

-- The ledger after each call in a transaction of its own.
def submitAll (calls : List (OwnerCall runtime programId owner)) (ledger : Ledger) : Ledger :=
  ((chain runtime programId).run ledger (calls.map fun call => [call.step])).1

theorem outcome_eq_process (call : OwnerCall runtime programId owner) (ledger : Ledger) :
    call.outcome ledger = (call.instruction.process runtime
      ⟨call.user, call.program, call.table :: call.rest⟩).run ledger := by
  rw [outcome, accounts, processInstruction_run, RoundNetInstruction.tryFromSlice_serialize]
  simp [call.signed, call.isProgram]

end OwnerCall

section Runs

open Attempt

variable {runtime : Runtime} {programId owner : PublicKey}

theorem editTable_run {context : Context} {table : AccountInfo}
    (listed : context.others[0]? = some table)
    (address : table.key = tableAddress runtime context.program.key context.user.key)
    (start stop : Nat) (edit : List UInt8 → Except Failure (List UInt8)) (ledger : Ledger) :
    (editTable runtime context start stop edit).run ledger =
      (editRegion table start stop edit).run ledger := by
  rw [editTable, run_bind_of_ok (Context.other_ok.mpr ⟨listed, rfl⟩),
    run_bind_of_ok (checkTableAccount_ok.mpr ⟨address, rfl, rfl⟩)]

theorem editRegion_run {account : AccountInfo} {ledger : Ledger} (front region back : List UInt8)
    (data : (ledger account.key).data = front ++ (region ++ back))
    (edit : List UInt8 → Except Failure (List UInt8)) :
    (editRegion account front.length (front.length + region.length) edit).run ledger =
      (edit region).map fun region' =>
        ((), ledger.setData account.key (front ++ (region' ++ back))) := by
  have long : ¬(front ++ (region ++ back)).length < front.length + region.length := by
    simp only [List.length_append]
    omega
  have lists : (front ++ region).length = front.length + region.length := List.length_append
  have middle : ((front ++ (region ++ back)).take (front.length + region.length)).drop front.length =
      region := by
    rw [← List.append_assoc, List.take_left' lists, List.drop_left]
  have tail : (front ++ (region ++ back)).drop (front.length + region.length) = back := by
    rw [← List.append_assoc, List.drop_left' lists]
  simp only [editRegion, run_get_bind, data, if_neg long, middle, tail, List.take_left]
  cases edit region <;> simp [Except.map]

theorem editRegion_servers {account : AccountInfo} {table : TableData} {ledger : Ledger}
    (data : (ledger account.key).data = table.serialize)
    (edit : List UInt8 → Except Failure (List UInt8)) :
    (editRegion account 0 512 edit).run ledger = (edit table.servers.toList).map fun region =>
      ((), ledger.setData account.key
        (region ++ (table.channels.toList ++ [Borsh.ofBool table.closed]))) := by
  have run := editRegion_run [] table.servers.toList
    (table.channels.toList ++ [Borsh.ofBool table.closed]) data edit
  rwa [table.servers.length_eq] at run

theorem editRegion_channels {account : AccountInfo} {table : TableData} {ledger : Ledger}
    (data : (ledger account.key).data = table.serialize)
    (edit : List UInt8 → Except Failure (List UInt8)) :
    (editRegion account 512 1024 edit).run ledger = (edit table.channels.toList).map fun region =>
      ((), ledger.setData account.key
        (table.servers.toList ++ (region ++ [Borsh.ofBool table.closed]))) := by
  have run := editRegion_run table.servers.toList table.channels.toList
    [Borsh.ofBool table.closed] data edit
  rwa [table.servers.length_eq, table.channels.length_eq] at run

theorem RoundNetInstruction.process_edit {context : Context} {account : AccountInfo}
    {instruction : RoundNetInstruction} {table : TableData} {ledger : Ledger}
    (edits : instruction.edited.isSome) (listed : context.others[0]? = some account)
    (address : account.key = tableAddress runtime context.program.key context.user.key)
    (data : (ledger account.key).data = table.serialize) :
    (instruction.process runtime context).run ledger = (table.edit instruction).map fun table' =>
      ((), ledger.setData account.key table'.serialize) := by
  cases instruction with
  | AddBootstrap bootstrap =>
    rw [RoundNetInstruction.process, addBootstrap, editTable_run listed address,
      editRegion_servers data, ← Bytes.map_toList_strBufAdd, TableData.edit]
    cases Bytes.strBufAdd table.servers bootstrap <;> rfl
  | RemoveBootstrap bootstrap =>
    rw [RoundNetInstruction.process, removeBootstrap, editTable_run listed address,
      editRegion_servers data, ← Bytes.map_toList_strBufRm, TableData.edit]
    cases Bytes.strBufRm table.servers bootstrap <;> rfl
  | AddChannelArgs channel =>
    rw [RoundNetInstruction.process, addChannel, editTable_run listed address,
      editRegion_channels data, ← Bytes.map_toList_strBufAdd, TableData.edit]
    cases Bytes.strBufAdd table.channels channel <;> rfl
  | RemoveChannelArgs channel =>
    rw [RoundNetInstruction.process, removeChannel, editTable_run listed address,
      editRegion_channels data, ← Bytes.map_toList_strBufRm, TableData.edit]
    cases Bytes.strBufRm table.channels channel <;> rfl
  | _ => cases edits

theorem OwnerCall.outcome_edit (call : OwnerCall runtime programId owner) {table : TableData}
    {ledger : Ledger} (edits : call.instruction.edited.isSome)
    (data : (ledger (tableAddress runtime programId owner)).data = table.serialize) :
    call.outcome ledger = (table.edit call.instruction).map fun table' =>
      ((), ledger.setData (tableAddress runtime programId owner) table'.serialize) := by
  have address : call.table.key = tableAddress runtime call.program.key call.user.key := by
    rw [call.isTable, call.isProgram, call.isOwner]
  rw [call.outcome_eq_process, ← call.isTable] at *
  exact RoundNetInstruction.process_edit edits rfl address data

theorem Ledger.purge_of_funded {ledger : Ledger} {key : PublicKey}
    (funded : 0 < (ledger key).lamports) : ledger.purge key = ledger key :=
  if_neg funded.ne'

theorem OwnerCall.submitAll_snoc (calls : List (OwnerCall runtime programId owner))
    (call : OwnerCall runtime programId owner) (ledger : Ledger) :
    submitAll (calls ++ [call]) ledger =
      match call.outcome (submitAll calls ledger) with
      | .ok ((), ledger') => ledger'.purge
      | .error _ => submitAll calls ledger := by
  simp only [submitAll, List.map_append, List.map_singleton, Reactive.Machine.run_snoc]
  rw [chain, executeAll_single, step, Step.execute, ← OwnerCall.outcome]
  cases call.outcome ((chain runtime programId).run ledger (calls.map fun call => [call.step])).1 <;>
    rfl

theorem OwnerCall.submitAll_edits {calls : List (OwnerCall runtime programId owner)}
    (edits : ∀ call ∈ calls, call.instruction.edited.isSome) {table : TableData} {ledger : Ledger}
    (data : (ledger (tableAddress runtime programId owner)).data = table.serialize)
    (funded : 0 < (ledger (tableAddress runtime programId owner)).lamports) :
    (submitAll calls ledger (tableAddress runtime programId owner)).data =
        (table.after (calls.map OwnerCall.instruction)).serialize ∧
      0 < (submitAll calls ledger (tableAddress runtime programId owner)).lamports := by
  induction calls using List.reverseRecOn with
  | nil => exact ⟨data, funded⟩
  | append_singleton calls call ih =>
    obtain ⟨reached, isFunded⟩ := ih fun call member => edits call (by simp [member])
    rw [submitAll_snoc, call.outcome_edit (edits call (by simp)) reached, List.map_append,
      List.map_singleton, TableData.after_snoc]
    cases (table.after (calls.map OwnerCall.instruction)).edit call.instruction with
    | error failure => exact ⟨reached, isFunded⟩
    | ok table' =>
      simp only [Except.map]
      rw [Ledger.purge_of_funded (by rwa [Ledger.setData_lamports]), Ledger.setData_data,
        Ledger.setData_lamports]
      exact ⟨rfl, isFunded⟩

theorem OwnerCall.outcome_initTable (documented : runtime.Documented)
    {call : OwnerCall runtime programId owner} {closed : Bool}
    (init : call.instruction = .InitTable closed) {ledger created : Ledger}
    (done : call.outcome ledger = .ok ((), created)) :
    (created.purge (tableAddress runtime programId owner)).data = (TableData.new closed).serialize ∧
      0 < (created.purge (tableAddress runtime programId owner)).lamports := by
  rw [call.outcome_eq_process, init] at done
  have handled := RoundNetInstruction.process_ok documented done
  cases handled with
  | @initTable _ table middle listed address absent creation change =>
    rw [call.isProgram, call.isOwner] at address
    rw [← address, change, Ledger.purge_of_funded (by simpa using creation.funded),
      Ledger.setData_data, Ledger.setData_lamports]
    exact ⟨rfl, creation.funded⟩
  | edited edits => cases edits

end Runs

end RoundTable.Contract
