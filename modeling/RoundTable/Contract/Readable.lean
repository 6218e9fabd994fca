import RoundTable.Contract.Edits

set_option autoImplicit false

namespace RoundTable.Contract

/-- A character ends where the region ends, unless the text that an accepted addition writes is not
longer than the region. -/
def EndsWhole (array sRaw : List UInt8) : Prop :=
  ∀ d s, Utf8.decode array = some d → Utf8.decode sRaw = some s → ¬trimNuls s <:+: trimNuls d →
    array.length < (Utf8.encode (trimNuls d ++ ';' :: trimNuls s)).length →
      ∃ whole, whole <+: trimNuls d ++ ';' :: trimNuls s ∧ (Utf8.encode whole).length = array.length

theorem overwrite_encode {array : List UInt8} {text : List Char}
    (fits : (Utf8.encode text).length ≤ array.length) :
    overwrite array (Utf8.encode text) =
      Utf8.encode (text ++ List.replicate (array.length - (Utf8.encode text).length) Utf8.nul) := by
  rw [overwrite, List.take_of_length_le fits, Utf8.encode_append, Utf8.encode_nuls]

theorem readable_overwrite_iff {array : List UInt8} {text : List Char} :
    (Utf8.decode (overwrite array (Utf8.encode text))).isSome ↔
      (array.length < (Utf8.encode text).length →
        ∃ whole, whole <+: text ∧ (Utf8.encode whole).length = array.length) := by
  by_cases fits : (Utf8.encode text).length ≤ array.length
  · rw [overwrite_encode fits, Utf8.decode_encode]
    exact ⟨fun _ long => absurd fits (by omega), fun _ => rfl⟩
  · have long : array.length < (Utf8.encode text).length := by omega
    have cut : overwrite array (Utf8.encode text) = (Utf8.encode text).take array.length := by
      rw [overwrite, Nat.sub_eq_zero_of_le long.le, List.replicate_zero, List.append_nil]
    rw [cut, Utf8.decode_take long.le]
    exact ⟨fun whole _ => whole, fun whole => whole long⟩

section Region

variable {d s : List Char}

theorem strBufAdd_encode (d s : List Char) :
    strBufAdd (Utf8.encode d) (Utf8.encode s) =
      if trimNuls s <:+: trimNuls d then .error (.error .EntryAlreadyExists)
      else .ok (overwrite (Utf8.encode d) (Utf8.encode (trimNuls d ++ ';' :: trimNuls s))) := by
  simp only [strBufAdd, fromUtf8_encode, Attempt.ok_bind]
  split_ifs <;> rfl

theorem strBufRm_encode (d s : List Char) :
    strBufRm (Utf8.encode d) (Utf8.encode s) =
      if trimNuls s <:+: trimNuls d then
        .ok (overwrite (Utf8.encode d)
          (Utf8.encode (Delimited.removeAll (';' :: trimNuls s) (trimNuls d))))
      else .error (.error .EntryDoesntExist) := by
  simp only [strBufRm, fromUtf8_encode, Attempt.ok_bind]
  by_cases present : trimNuls s <:+: trimNuls d <;> simp [present]

theorem endsWhole_encode_iff : EndsWhole (Utf8.encode d) (Utf8.encode s) ↔
    (¬trimNuls s <:+: trimNuls d →
      (Utf8.decode (overwrite (Utf8.encode d)
        (Utf8.encode (trimNuls d ++ ';' :: trimNuls s)))).isSome) := by
  rw [readable_overwrite_iff]
  constructor
  · exact fun whole absent long => whole d s (by simp) (by simp) absent long
  · intro whole d' s' decoded given absent long
    rw [Utf8.decode_encode] at decoded given
    obtain rfl := Option.some.inj decoded
    obtain rfl := Option.some.inj given
    exact whole absent long

theorem readable_removed (d s : List Char) :
    (Utf8.decode (overwrite (Utf8.encode d)
      (Utf8.encode (Delimited.removeAll (';' :: trimNuls s) (trimNuls d))))).isSome := by
  have shorter := Utf8.length_encode_le
    ((Delimited.removeAll_sublist (';' :: trimNuls s) (trimNuls d)).trans (trimNuls_sublist d))
  rw [overwrite_encode shorter, Utf8.decode_encode]
  rfl

end Region

def RoundNetInstruction.argument : RoundNetInstruction → Option (Bytes 128)
  | .AddBootstrap argument | .RemoveBootstrap argument | .AddChannelArgs argument
  | .RemoveChannelArgs argument => some argument
  | _ => none

def RoundNetInstruction.EditsText (instruction : RoundNetInstruction) : Prop :=
  ∃ argument, instruction.argument = some argument ∧ (Utf8.decode argument.toList).isSome

def RoundNetInstruction.EndsWhole (data : List UInt8) : RoundNetInstruction → Prop
  | .AddBootstrap bootstrap => Contract.EndsWhole (data.take 512) bootstrap.toList
  | .AddChannelArgs channel => Contract.EndsWhole ((data.take 1024).drop 512) channel.toList
  | _ => True

theorem RoundNetInstruction.EditsText.edited {instruction : RoundNetInstruction}
    (text : instruction.EditsText) : instruction.edited.isSome := by
  obtain ⟨argument, given, -⟩ := text
  cases instruction <;> first | rfl | cases given

namespace TableData

def Readable (table : TableData) : Prop :=
  (Utf8.decode table.servers.toList).isSome ∧ (Utf8.decode table.channels.toList).isSome

theorem take_serialize (table : TableData) : table.serialize.take 512 = table.servers.toList :=
  List.take_left' table.servers.length_eq

theorem drop_take_serialize (table : TableData) :
    (table.serialize.take 1024).drop 512 = table.channels.toList := by
  have lists : (table.servers.toList ++ table.channels.toList).length = 1024 := by
    simp [table.servers.length_eq, table.channels.length_eq]
  rw [serialize, ← List.append_assoc, List.take_left' lists, List.drop_left' table.servers.length_eq]

theorem new_readable (closed : Bool) : (TableData.new closed).Readable := by
  have zeros : (Utf8.decode (List.replicate 512 0)).isSome := by
    rw [← Utf8.encode_nuls, Utf8.decode_encode]
    rfl
  exact ⟨zeros, zeros⟩

end TableData

namespace Bytes

variable {n : Nat} {array : Bytes n} {sRaw : Bytes 128}

theorem strBufAdd_cases (readable : (Utf8.decode array.toList).isSome)
    (given : (Utf8.decode sRaw.toList).isSome) :
    (strBufAdd array sRaw = .error (.error .EntryAlreadyExists) ∧ EndsWhole array.toList sRaw.toList) ∨
      ∃ region, strBufAdd array sRaw = .ok region ∧
        ((Utf8.decode region.toList).isSome ↔ EndsWhole array.toList sRaw.toList) := by
  obtain ⟨d, isD⟩ := Option.isSome_iff_exists.mp readable
  obtain ⟨s, isS⟩ := Option.isSome_iff_exists.mp given
  have added := map_toList_strBufAdd array sRaw
  rw [Utf8.decode_iff.mp isD, Utf8.decode_iff.mp isS, strBufAdd_encode] at added
  rw [Utf8.decode_iff.mp isD, Utf8.decode_iff.mp isS, endsWhole_encode_iff]
  split_ifs at added with present
  · cases outcome : strBufAdd array sRaw with
    | ok region => simp [outcome, Except.map] at added
    | error failure =>
      simp only [outcome, Except.map, Except.error.injEq] at added
      exact .inl ⟨by rw [added], fun absent => absurd present absent⟩
  · cases outcome : strBufAdd array sRaw with
    | error failure => simp [outcome, Except.map] at added
    | ok region =>
      simp only [outcome, Except.map, Except.ok.injEq] at added
      exact .inr ⟨region, rfl, by simp [added, present]⟩

theorem strBufRm_cases (readable : (Utf8.decode array.toList).isSome)
    (given : (Utf8.decode sRaw.toList).isSome) :
    strBufRm array sRaw = .error (.error .EntryDoesntExist) ∨
      ∃ region, strBufRm array sRaw = .ok region ∧ (Utf8.decode region.toList).isSome := by
  obtain ⟨d, isD⟩ := Option.isSome_iff_exists.mp readable
  obtain ⟨s, isS⟩ := Option.isSome_iff_exists.mp given
  have removed := map_toList_strBufRm array sRaw
  rw [Utf8.decode_iff.mp isD, Utf8.decode_iff.mp isS, strBufRm_encode] at removed
  split_ifs at removed with present
  · cases outcome : strBufRm array sRaw with
    | error failure => simp [outcome, Except.map] at removed
    | ok region =>
      simp only [outcome, Except.map, Except.ok.injEq] at removed
      exact .inr ⟨region, rfl, removed ▸ readable_removed d s⟩
  · cases outcome : strBufRm array sRaw with
    | ok region => simp [outcome, Except.map] at removed
    | error failure =>
      simp only [outcome, Except.map, Except.error.injEq] at removed
      exact .inl (by rw [removed])

end Bytes

-- An edit of a readable table does not panic, and the table stays readable exactly when a
-- character ends where the region ends.
theorem TableData.Readable.edit {table : TableData} (readable : table.Readable)
    {instruction : RoundNetInstruction} (text : instruction.EditsText) :
    table.edit instruction ≠ .error (.panic .fromUtf8) ∧
      (((table.edit instruction).toOption.getD table).Readable ↔
        instruction.EndsWhole table.serialize) := by
  obtain ⟨argument, given, isText⟩ := text
  cases instruction with
  | AddBootstrap bootstrap =>
    obtain rfl := Option.some.inj given
    rw [RoundNetInstruction.EndsWhole, table.take_serialize, TableData.edit]
    obtain ⟨outcome, whole⟩ | ⟨region, outcome, whole⟩ :=
      Bytes.strBufAdd_cases readable.1 isText
    · simpa [outcome, Except.map, Except.toOption, whole] using readable
    · simpa [outcome, Except.map, Except.toOption, whole, Readable] using fun _ => readable.2
  | RemoveBootstrap bootstrap =>
    obtain rfl := Option.some.inj given
    rw [TableData.edit]
    obtain outcome | ⟨region, outcome, kept⟩ := Bytes.strBufRm_cases readable.1 isText
    · simpa [outcome, Except.map, Except.toOption, RoundNetInstruction.EndsWhole] using readable
    · simpa [outcome, Except.map, Except.toOption, RoundNetInstruction.EndsWhole, Readable] using
        ⟨kept, readable.2⟩
  | AddChannelArgs channel =>
    obtain rfl := Option.some.inj given
    rw [RoundNetInstruction.EndsWhole, table.drop_take_serialize, TableData.edit]
    obtain ⟨outcome, whole⟩ | ⟨region, outcome, whole⟩ :=
      Bytes.strBufAdd_cases readable.2 isText
    · simpa [outcome, Except.map, Except.toOption, whole] using readable
    · simpa [outcome, Except.map, Except.toOption, whole, Readable] using fun _ => readable.1
  | RemoveChannelArgs channel =>
    obtain rfl := Option.some.inj given
    rw [TableData.edit]
    obtain outcome | ⟨region, outcome, kept⟩ := Bytes.strBufRm_cases readable.2 isText
    · simpa [outcome, Except.map, Except.toOption, RoundNetInstruction.EndsWhole] using readable
    · simpa [outcome, Except.map, Except.toOption, RoundNetInstruction.EndsWhole, Readable] using
        ⟨readable.1, kept⟩
  | _ => cases given

section Runs

variable {runtime : Runtime} {programId owner : PublicKey}

/-- Both lists are valid UTF-8, and no edit with a valid argument panics on them. -/
structure Usable (runtime : Runtime) (programId owner : PublicKey) (ledger : Ledger) : Prop where
  servers : (Utf8.decode ((ledger (tableAddress runtime programId owner)).data.take 512)).isSome
  channels : (Utf8.decode
    (((ledger (tableAddress runtime programId owner)).data.take 1024).drop 512)).isSome
  edits : ∀ call : OwnerCall runtime programId owner, call.instruction.EditsText →
    call.outcome ledger ≠ .error (.panic .fromUtf8)

theorem usable_iff {ledger : Ledger} {table : TableData}
    (data : (ledger (tableAddress runtime programId owner)).data = table.serialize) :
    Usable runtime programId owner ledger ↔ table.Readable := by
  constructor
  · intro usable
    have servers := usable.servers
    have channels := usable.channels
    rw [data, table.take_serialize] at servers
    rw [data, table.drop_take_serialize] at channels
    exact ⟨servers, channels⟩
  · intro readable
    refine ⟨?_, ?_, fun call text => ?_⟩
    · rw [data, table.take_serialize]
      exact readable.1
    · rw [data, table.drop_take_serialize]
      exact readable.2
    · rw [call.outcome_edit text.edited data]
      have calm := (readable.edit text).1
      cases outcome : table.edit call.instruction with
      | ok table' => simp [Except.map]
      | error failure => simpa [Except.map, outcome] using calm

theorem after_readable_iff {table : TableData} (readable : table.Readable)
    {instructions : List RoundNetInstruction}
    (texts : ∀ instruction ∈ instructions, instruction.EditsText) :
    (∀ n, (table.after (instructions.take n)).Readable) ↔
      ∀ (n : Nat) (instruction : RoundNetInstruction), instructions[n]? = some instruction →
        instruction.EndsWhole (table.after (instructions.take n)).serialize := by
  have next (n : Nat) (instruction : RoundNetInstruction) (found : instructions[n]? = some instruction)
      (reached : (table.after (instructions.take n)).Readable) :
      (table.after (instructions.take (n + 1))).Readable ↔
        instruction.EndsWhole (table.after (instructions.take n)).serialize := by
    rw [List.take_add_one, found, Option.toList_some, TableData.after_snoc]
    exact (reached.edit (texts instruction (List.mem_of_getElem? found))).2
  constructor
  · intro all n instruction found
    exact (next n instruction found (all n)).mp (all (n + 1))
  · intro whole n
    induction n with
    | zero => exact readable
    | succ n ih =>
      cases found : instructions[n]? with
      | none => rwa [List.take_add_one, found, Option.toList_none, List.append_nil]
      | some instruction => exact (next n instruction found ih).mpr (whole n instruction found)

/-- A new table stays usable along a run of edits with valid arguments exactly when no accepted
addition ends within a character. -/
theorem table_usable_iff (documented : runtime.Documented) {closed : Bool}
    (init : OwnerCall runtime programId owner) (isInit : init.instruction = .InitTable closed)
    {initial created : Ledger} (done : init.outcome initial = .ok ((), created))
    (calls : List (OwnerCall runtime programId owner))
    (texts : ∀ call ∈ calls, call.instruction.EditsText) :
    (∀ n, Usable runtime programId owner (OwnerCall.submitAll (calls.take n) created.purge)) ↔
      ∀ (n : Nat) (call : OwnerCall runtime programId owner), calls[n]? = some call →
        call.instruction.EndsWhole
        (OwnerCall.submitAll (calls.take n) created.purge
          (tableAddress runtime programId owner)).data := by
  obtain ⟨new, funded⟩ := OwnerCall.outcome_initTable documented isInit done
  have data (n : Nat) : (OwnerCall.submitAll (calls.take n) created.purge
      (tableAddress runtime programId owner)).data =
        ((TableData.new closed).after ((calls.map OwnerCall.instruction).take n)).serialize := by
    rw [← List.map_take]
    exact (OwnerCall.submitAll_edits (fun call member =>
      (texts call (List.mem_of_mem_take member)).edited) new funded).1
  simp only [usable_iff (data _), data]
  rw [after_readable_iff (TableData.new_readable closed) (by simpa using texts)]
  simp only [List.getElem?_map, Option.map_eq_some_iff]
  exact ⟨fun whole n call found => whole n _ ⟨call, found, rfl⟩,
    fun whole n _ ⟨call, found, same⟩ => same ▸ whole n call found⟩

def Sample.ownerCall (instruction : RoundNetInstruction) :
    OwnerCall Sample.runtime PROGRAM_ID Sample.owner where
  user := ⟨Sample.owner, true, true⟩
  program := ⟨PROGRAM_ID, false, false⟩
  table := ⟨Sample.table, false, true⟩
  rest := [⟨systemProgramId, false, false⟩]
  instruction := instruction
  isOwner := rfl
  signed := rfl
  isProgram := rfl
  isTable := by decide +kernel

-- Names that fill the region up to its last two bytes, and one more of two bytes.
def Sample.overfull : List RoundNetInstruction :=
  [.AddBootstrap (padded (List.replicate 127 'a') (by decide +kernel)),
    .AddBootstrap (padded (List.replicate 127 'b') (by decide +kernel)),
    .AddBootstrap (padded (List.replicate 127 'c') (by decide +kernel)),
    .AddBootstrap (padded (List.replicate 125 'd') (by decide +kernel)),
    .AddBootstrap (padded ['é'] (by decide +kernel))]

def Sample.overfilled : TableData :=
  (TableData.new false).after ((Sample.overfull.map Sample.ownerCall).map OwnerCall.instruction)

-- The first byte of the last name is the last byte of the region.
theorem Sample.overfilled_cut :
    (Utf8.decode Sample.overfilled.servers.toList).isSome = false ∧
      Sample.overfilled.edit (.RemoveBootstrap (padded ['é'] (by decide +kernel))) =
        .error (.panic .fromUtf8) := by
  decide +kernel

theorem Sample.overfull_texts :
    ∀ call ∈ Sample.overfull.map Sample.ownerCall, call.instruction.EditsText := by
  have valid : ∀ instruction ∈ Sample.overfull,
      (instruction.argument.bind fun argument => Utf8.decode argument.toList).isSome := by
    decide +kernel
  intro call member
  obtain ⟨instruction, listed, rfl⟩ := List.mem_map.mp member
  obtain ⟨text, isText⟩ := Option.isSome_iff_exists.mp (valid instruction listed)
  obtain ⟨argument, given, decoded⟩ := Option.bind_eq_some_iff.mp isText
  exact ⟨argument, given, by rw [decoded]; rfl⟩

theorem Sample.created_open :
    ∃ created, (Sample.ownerCall (.InitTable false)).outcome Sample.funded = .ok ((), created) := by
  have succeeds : ((Sample.ownerCall (.InitTable false)).outcome Sample.funded).isOk = true := by
    decide +kernel
  obtain ⟨⟨⟨⟩, created⟩, done⟩ := Attempt.exists_of_isOk succeeds
  exact ⟨created, done⟩

theorem table_bricked : ∃ created,
    (Sample.ownerCall (.InitTable false)).outcome Sample.funded = .ok ((), created) ∧
      (∀ call ∈ Sample.overfull.map Sample.ownerCall, call.instruction.EditsText) ∧
      let reached := OwnerCall.submitAll (Sample.overfull.map Sample.ownerCall) created.purge
      ¬Usable Sample.runtime PROGRAM_ID Sample.owner reached ∧
        (Sample.ownerCall (.RemoveBootstrap (padded ['é'] (by decide +kernel)))).outcome reached =
          .error (.panic .fromUtf8) := by
  obtain ⟨created, done⟩ := Sample.created_open
  obtain ⟨new, funded⟩ := OwnerCall.outcome_initTable Sample.runtime_documented rfl done
  have data := (OwnerCall.submitAll_edits
    (fun call member => (Sample.overfull_texts call member).edited) new funded).1
  obtain ⟨cut, panics⟩ := Sample.overfilled_cut
  refine ⟨created, done, Sample.overfull_texts, fun usable => ?_, ?_⟩
  · rw [Sample.overfilled] at cut
    have readable := ((usable_iff data).mp usable).1
    rw [cut] at readable
    cases readable
  · rw [OwnerCall.outcome_edit _ rfl data]
    rw [Sample.overfilled] at panics
    rw [Sample.ownerCall, panics]
    rfl

theorem table_usable_iff_overfull : ∃ created,
    (Sample.ownerCall (.InitTable false)).outcome Sample.funded = .ok ((), created) ∧
      let calls := Sample.overfull.map Sample.ownerCall
      ((∀ n, Usable Sample.runtime PROGRAM_ID Sample.owner
          (OwnerCall.submitAll (calls.take n) created.purge)) ↔
        ∀ (n : Nat) (call : OwnerCall Sample.runtime PROGRAM_ID Sample.owner),
          calls[n]? = some call → call.instruction.EndsWhole
            (OwnerCall.submitAll (calls.take n) created.purge
              (tableAddress Sample.runtime PROGRAM_ID Sample.owner)).data) := by
  obtain ⟨created, done⟩ := Sample.created_open
  exact ⟨created, done, table_usable_iff Sample.runtime_documented
    (Sample.ownerCall (.InitTable false)) rfl done _ Sample.overfull_texts⟩

end Runs

end RoundTable.Contract
