import RoundTable.Client.Regions

set_option autoImplicit false

namespace RoundTable.Client

open Contract

/-- Names that fit an argument and can be told apart within a list. -/
structure Names (names : Set (List Char)) : Prop where
  nonempty : ∀ name ∈ names, name ≠ []
  short : ∀ name ∈ names, (Utf8.encode name).length ≤ 128
  noDelimiter : ∀ name ∈ names, ';' ∉ name
  noNul : ∀ name ∈ names, Utf8.nul ∉ name
  apart : ∀ name ∈ names, ∀ other ∈ names, name <:+: other → name = other

theorem Names.insert {names : Set (List Char)} (valid : Names names) {name : List Char}
    (nonempty : name ≠ []) (short : (Utf8.encode name).length ≤ 128) (noDelimiter : ';' ∉ name)
    (noNul : Utf8.nul ∉ name) (apart : ∀ other ∈ names, ¬name <:+: other ∧ ¬other <:+: name) :
    Names (insert name names) where
  nonempty := by
    rintro _ (rfl | member)
    exacts [nonempty, valid.nonempty _ member]
  short := by
    rintro _ (rfl | member)
    exacts [short, valid.short _ member]
  noDelimiter := by
    rintro _ (rfl | member)
    exacts [noDelimiter, valid.noDelimiter _ member]
  noNul := by
    rintro _ (rfl | member)
    exacts [noNul, valid.noNul _ member]
  apart := by
    rintro _ (rfl | member) _ (rfl | member') part
    · rfl
    · exact absurd part (apart _ member').1
    · exact absurd part (apart _ member).2
    · exact valid.apart _ member _ member' part

structure NameList (names : Set (List Char)) where
  toList : List (List Char)
  nodup : toList.Nodup
  within : ∀ name ∈ toList, name ∈ names

namespace NameList

variable {names : Set (List Char)}

def empty : NameList names := ⟨[], List.nodup_nil, by simp⟩

def add (list : NameList names) (name : names) : Except Errors (NameList names) :=
  if present : name.1 ∈ list.toList then .error .EntryAlreadyExists
  else .ok
    { toList := list.toList ++ [name.1]
      nodup := List.nodup_append.mpr ⟨list.nodup, List.nodup_singleton _, fun _ member _ only =>
        ne_of_mem_of_not_mem member (List.mem_singleton.mp only ▸ present)⟩
      within := fun other member => (List.mem_append.mp member).elim (list.within other)
        fun only => List.mem_singleton.mp only ▸ name.2 }

def remove (list : NameList names) (name : names) : Except Errors (NameList names) :=
  if name.1 ∈ list.toList then .ok
    { toList := list.toList.erase name.1
      nodup := list.nodup.erase _
      within := fun other member => list.within other (List.mem_of_mem_erase member) }
  else .error .EntryDoesntExist

def size (list : NameList names) : Nat :=
  (list.toList.map fun name => 1 + (Utf8.encode name).length).sum

def text (list : NameList names) : List Char := Delimited.join ';' list.toList

theorem length_encode_text (list : NameList names) : (Utf8.encode list.text).length = list.size := by
  rw [text, size]
  induction list.toList with
  | nil => rfl
  | cons name entries ih =>
    have delimiter : String.utf8EncodeChar ';' = [59] := by decide
    rw [Delimited.join_cons, Utf8.encode_cons, Utf8.encode_append, delimiter, List.map_cons,
      List.sum_cons, List.length_append, List.length_append, ih, List.length_singleton]
    omega

end NameList

section Region

variable {names : Set (List Char)} (valid : Names names)

def Holds (region : Bytes 512) (list : NameList names) : Prop :=
  ∃ n, region.toList = Utf8.encode (list.text ++ List.replicate n Utf8.nul)

def Answers (outcome : Except Failure (Bytes 512)) (list : Except Errors (NameList names)) : Prop :=
  match list with
  | .error reported => outcome = .error (.error reported)
  | .ok list => ∃ region, outcome = .ok region ∧ Holds region list

theorem Holds.size_le {region : Bytes 512} {list : NameList names} (holds : Holds region list) :
    list.size ≤ 512 := by
  obtain ⟨n, same⟩ := holds
  have length := congrArg List.length same
  rw [region.length_eq, Utf8.encode_append, List.length_append, list.length_encode_text] at length
  omega

theorem holds_overwrite {region region' : Bytes 512} {list : NameList names} {text : List Char}
    (written : region'.toList = overwrite region.toList (Utf8.encode text))
    (same : text = list.text) (fits : list.size ≤ 512) : Holds region' list := by
  subst same
  refine ⟨_, written.trans (overwrite_encode ?_)⟩
  rw [list.length_encode_text, region.length_eq]
  exact fits

include valid

theorem entry_of_mem (list : NameList names) : ∀ name ∈ list.toList, Entry name := fun name member =>
  ⟨valid.nonempty _ (list.within name member), valid.noDelimiter _ (list.within name member),
    valid.noNul _ (list.within name member)⟩

theorem nul_not_mem_text (list : NameList names) : Utf8.nul ∉ list.text :=
  nul_not_mem_join (entry_of_mem valid list)

theorem infix_text_iff (list : NameList names) (name : names) :
    name.1 <:+: list.text ↔ name.1 ∈ list.toList := by
  rw [NameList.text, Delimited.infix_join_iff (valid.nonempty _ name.2) (valid.noDelimiter _ name.2)]
  constructor
  · rintro ⟨other, member, part⟩
    exact valid.apart _ name.2 _ (list.within other member) part ▸ member
  · exact fun member => ⟨name.1, member, List.infix_rfl⟩

theorem removeAll_text (list : NameList names) (name : names) :
    Delimited.removeAll (';' :: name.1) list.text =
      Delimited.join ';' (list.toList.erase name.1) := by
  rw [NameList.text, Delimited.removeAll_join (valid.noDelimiter _ name.2)
    (fun other member => valid.noDelimiter _ (list.within other member))
    (fun other member front => valid.apart _ name.2 _ (list.within other member) front.isInfix),
    list.nodup.erase_eq_filter]
  congr 1
  exact List.filter_congr fun other _ => by rw [Bool.eq_iff_iff]; simp

theorem answers_add {region : Bytes 512} {list : NameList names} (holds : Holds region list)
    (name : names) (fits : ∀ list', list.add name = .ok list' → list'.size ≤ 512) :
    Answers (Bytes.strBufAdd region (padded name.1 (valid.short _ name.2))) (list.add name) := by
  obtain ⟨n, isRegion⟩ := holds
  have added := Bytes.map_toList_strBufAdd region (padded name.1 (valid.short _ name.2))
  rw [isRegion, padded_toList, strBufAdd_encode, trimNuls_of_not_nul (nul_not_mem_text valid list),
    trimNuls_of_not_nul (valid.noNul _ name.2), ← isRegion] at added
  by_cases present : name.1 ∈ list.toList
  · rw [if_pos ((infix_text_iff valid list name).mpr present)] at added
    rw [NameList.add, dif_pos present]
    cases outcome : Bytes.strBufAdd region (padded name.1 (valid.short _ name.2)) with
    | error failure => simpa [outcome, Except.map, Answers] using added
    | ok region' => simp [outcome, Except.map] at added
  · rw [if_neg fun inside => present ((infix_text_iff valid list name).mp inside)] at added
    rw [NameList.add, dif_neg present] at fits ⊢
    cases outcome : Bytes.strBufAdd region (padded name.1 (valid.short _ name.2)) with
    | error failure => simp [outcome, Except.map] at added
    | ok region' =>
      rw [outcome] at added
      refine ⟨region', rfl, holds_overwrite (Except.ok.inj added) ?_ (fits _ rfl)⟩
      simp [NameList.text, Delimited.join_append]

theorem answers_remove {region : Bytes 512} {list : NameList names} (holds : Holds region list)
    (name : names) :
    Answers (Bytes.strBufRm region (padded name.1 (valid.short _ name.2))) (list.remove name) := by
  have fits := holds.size_le
  obtain ⟨n, isRegion⟩ := holds
  have removed := Bytes.map_toList_strBufRm region (padded name.1 (valid.short _ name.2))
  rw [isRegion, padded_toList, strBufRm_encode, trimNuls_of_not_nul (nul_not_mem_text valid list),
    trimNuls_of_not_nul (valid.noNul _ name.2), removeAll_text valid, ← isRegion] at removed
  by_cases present : name.1 ∈ list.toList
  · rw [if_pos ((infix_text_iff valid list name).mpr present)] at removed
    rw [NameList.remove, if_pos present]
    cases outcome : Bytes.strBufRm region (padded name.1 (valid.short _ name.2)) with
    | error failure => simp [outcome, Except.map] at removed
    | ok region' =>
      rw [outcome] at removed
      refine ⟨region', rfl, holds_overwrite (Except.ok.inj removed) rfl ?_⟩
      have shorter := Utf8.length_encode_le (Delimited.removeAll_sublist (';' :: name.1) list.text)
      rw [removeAll_text valid, list.length_encode_text] at shorter
      rw [← NameList.length_encode_text]
      exact shorter.trans fits
  · rw [if_neg fun inside => present ((infix_text_iff valid list name).mp inside)] at removed
    rw [NameList.remove, if_neg present]
    cases outcome : Bytes.strBufRm region (padded name.1 (valid.short _ name.2)) with
    | error failure => simpa [outcome, Except.map, Answers] using removed
    | ok region' => simp [outcome, Except.map] at removed

theorem entries_of_holds {region : Bytes 512} {list : NameList names} (holds : Holds region list) :
    entries region.toList = list.toList :=
  entries_of_listing ⟨entry_of_mem valid list, holds⟩

end Region

structure Lists (names : Set (List Char)) where
  servers : NameList names
  channels : NameList names

inductive Edit (names : Set (List Char)) where
  | AddBootstrap (name : names)
  | RemoveBootstrap (name : names)
  | AddChannel (name : names)
  | RemoveChannel (name : names)

namespace Edit

variable {names : Set (List Char)}

def instruction (valid : Names names) : Edit names → RoundNetInstruction
  | .AddBootstrap name => .AddBootstrap (padded name.1 (valid.short _ name.2))
  | .RemoveBootstrap name => .RemoveBootstrap (padded name.1 (valid.short _ name.2))
  | .AddChannel name => .AddChannelArgs (padded name.1 (valid.short _ name.2))
  | .RemoveChannel name => .RemoveChannelArgs (padded name.1 (valid.short _ name.2))

theorem instruction_edited (valid : Names names) (edit : Edit names) :
    (edit.instruction valid).edited.isSome := by
  cases edit <;> rfl

end Edit

namespace Lists

variable {names : Set (List Char)}

def empty : Lists names := ⟨.empty, .empty⟩

def apply (lists : Lists names) : Edit names → Except Errors (Lists names)
  | .AddBootstrap name => (lists.servers.add name).map fun servers => { lists with servers }
  | .RemoveBootstrap name => (lists.servers.remove name).map fun servers => { lists with servers }
  | .AddChannel name => (lists.channels.add name).map fun channels => { lists with channels }
  | .RemoveChannel name => (lists.channels.remove name).map fun channels => { lists with channels }

-- The lists after a run of edits, of which the refused ones change nothing.
def after (lists : Lists names) (edits : List (Edit names)) : Lists names :=
  edits.foldl (fun lists edit => (lists.apply edit).toOption.getD lists) lists

theorem after_snoc (lists : Lists names) (edits : List (Edit names)) (edit : Edit names) :
    lists.after (edits ++ [edit]) =
      ((lists.after edits).apply edit).toOption.getD (lists.after edits) := by
  simp [after]

def Fits (lists : Lists names) : Prop := lists.servers.size ≤ 512 ∧ lists.channels.size ≤ 512

end Lists

section Table

variable {names : Set (List Char)} {table : TableData} {lists : Lists names} {closed : Bool}

structure Represents (table : TableData) (lists : Lists names) (closed : Bool) : Prop where
  servers : Holds table.servers lists.servers
  channels : Holds table.channels lists.channels
  closed : table.closed = closed

theorem represents_new (closed : Bool) :
    Represents (TableData.new closed) (Lists.empty : Lists names) closed := by
  have zeros : List.replicate 512 0 = Utf8.encode
      ((NameList.empty : NameList names).text ++ List.replicate 512 Utf8.nul) :=
    (Utf8.encode_nuls 512).symm
  exact ⟨⟨512, zeros⟩, ⟨512, zeros⟩, rfl⟩

def AnswersTable (outcome : Except Failure TableData) (lists : Except Errors (Lists names))
    (closed : Bool) : Prop :=
  match lists with
  | .error reported => outcome = .error (.error reported)
  | .ok lists => ∃ table, outcome = .ok table ∧ Represents table lists closed

theorem Answers.onServers (represents : Represents table lists closed)
    {outcome : Except Failure (Bytes 512)} {list : Except Errors (NameList names)}
    (answers : Answers outcome list) :
    AnswersTable (outcome.map fun servers => { table with servers })
      (list.map fun servers => { lists with servers }) closed := by
  cases list with
  | error reported =>
    obtain rfl : outcome = _ := answers
    rfl
  | ok list =>
    obtain ⟨region, rfl, holds⟩ := answers
    exact ⟨_, rfl, holds, represents.channels, represents.closed⟩

theorem Answers.onChannels (represents : Represents table lists closed)
    {outcome : Except Failure (Bytes 512)} {list : Except Errors (NameList names)}
    (answers : Answers outcome list) :
    AnswersTable (outcome.map fun channels => { table with channels })
      (list.map fun channels => { lists with channels }) closed := by
  cases list with
  | error reported =>
    obtain rfl : outcome = _ := answers
    rfl
  | ok list =>
    obtain ⟨region, rfl, holds⟩ := answers
    exact ⟨_, rfl, represents.servers, holds, represents.closed⟩

variable (valid : Names names)

theorem Represents.edit (represents : Represents table lists closed) (edit : Edit names)
    (fits : ((lists.apply edit).toOption.getD lists).Fits) :
    AnswersTable (table.edit (edit.instruction valid)) (lists.apply edit) closed := by
  cases edit with
  | AddBootstrap name =>
    refine (answers_add valid represents.servers name fun list added => ?_).onServers represents
    simpa [Lists.apply, added, Except.map, Except.toOption] using fits.1
  | RemoveBootstrap name =>
    exact (answers_remove valid represents.servers name).onServers represents
  | AddChannel name =>
    refine (answers_add valid represents.channels name fun list added => ?_).onChannels represents
    simpa [Lists.apply, added, Except.map, Except.toOption] using fits.2
  | RemoveChannel name =>
    exact (answers_remove valid represents.channels name).onChannels represents

theorem Represents.after (represents : Represents table lists closed) {edits : List (Edit names)}
    (fits : ∀ before, before <+: edits → (lists.after before).Fits) :
    Represents (table.after (edits.map (Edit.instruction valid))) (lists.after edits) closed := by
  induction edits using List.reverseRecOn with
  | nil => exact represents
  | append_singleton edits edit ih =>
    have whole := fits (edits ++ [edit]) List.prefix_rfl
    have earlier := ih fun before front => fits before (front.trans (List.prefix_append _ _))
    rw [Lists.after_snoc] at whole
    have answers := earlier.edit valid edit whole
    rw [List.map_append, List.map_singleton, TableData.after_snoc, Lists.after_snoc]
    cases applied : (lists.after edits).apply edit with
    | error reported =>
      rw [applied] at answers
      rw [show _ = _ from answers]
      exact earlier
    | ok lists' =>
      rw [applied] at answers
      obtain ⟨table', edited, represents'⟩ := answers
      rw [edited]
      exact represents'

end Table

section Runs

variable {names : Set (List Char)} {runtime : Runtime} {owner : PublicKey}

theorem getTableData_of_represents {ledger : Ledger} {table : TableData} {lists : Lists names}
    {closed : Bool} (valid : Names names) (represents : Represents table lists closed)
    (data : (ledger (tableAddress runtime PROGRAM_ID owner)).data = table.serialize)
    (funded : 0 < (ledger (tableAddress runtime PROGRAM_ID owner)).lamports) :
    getTableData runtime ledger owner =
      .ok (some ⟨lists.servers.toList, lists.channels.toList, Borsh.ofBool closed⟩) := by
  rw [getTableData_of_serialize data funded, entries_of_holds valid represents.servers,
    entries_of_holds valid represents.channels, represents.closed]

/-- After every edit the client reads the two lists, and the next edit answers as it does on them. -/
theorem lists_on_chain (documented : runtime.Documented) (valid : Names names) {closed : Bool}
    (init : OwnerCall runtime PROGRAM_ID owner) (isInit : init.instruction = .InitTable closed)
    {initial created : Ledger} (done : init.outcome initial = .ok ((), created))
    (run : List (OwnerCall runtime PROGRAM_ID owner × Edit names))
    (asks : ∀ asked ∈ run, asked.1.instruction = asked.2.instruction valid)
    (fits : ∀ n, (Lists.empty.after ((run.take n).map Prod.snd)).Fits) (n : Nat) :
    let ledger := OwnerCall.submitAll ((run.take n).map Prod.fst) created.purge
    let lists := Lists.empty.after ((run.take n).map Prod.snd)
    getTableData runtime ledger owner =
        .ok (some ⟨lists.servers.toList, lists.channels.toList, Borsh.ofBool closed⟩) ∧
      ∀ call edit, run[n]? = some (call, edit) →
        match lists.apply edit with
        | .ok _ => ∃ ledger', call.outcome ledger = .ok ((), ledger')
        | .error reported => call.outcome ledger = .error (.error reported) := by
  intro ledger lists
  obtain ⟨new, funded⟩ := OwnerCall.outcome_initTable documented isInit done
  have instructions : ((run.take n).map Prod.fst).map OwnerCall.instruction =
      ((run.take n).map Prod.snd).map (Edit.instruction valid) := by
    rw [List.map_map, List.map_map]
    exact List.map_congr_left fun asked member => asks asked (List.mem_of_mem_take member)
  have edits : ∀ call ∈ (run.take n).map Prod.fst, call.instruction.edited.isSome := by
    intro call member
    obtain ⟨asked, listed, rfl⟩ := List.mem_map.mp member
    rw [asks asked (List.mem_of_mem_take listed)]
    exact asked.2.instruction_edited valid
  obtain ⟨data, isFunded⟩ := OwnerCall.submitAll_edits edits new funded
  rw [instructions] at data
  have represents : Represents _ lists closed := (represents_new closed).after valid
    fun before front => by
      rw [List.prefix_iff_eq_take.mp front, ← List.map_take, List.take_take]
      exact fits _
  refine ⟨getTableData_of_represents valid represents data isFunded, fun call edit next => ?_⟩
  have asked := asks (call, edit) (List.mem_of_getElem? next)
  have fitsNext : ((lists.apply edit).toOption.getD lists).Fits := by
    have later := fits (n + 1)
    rwa [List.take_add_one, next, Option.toList_some, List.map_append, List.map_singleton,
      Lists.after_snoc] at later
  have answers := represents.edit valid edit fitsNext
  simp only at asked
  rw [call.outcome_edit (asked ▸ edit.instruction_edited valid) data, asked]
  cases applied : lists.apply edit with
  | error reported =>
    rw [applied] at answers
    rw [show _ = _ from answers]
    rfl
  | ok lists' =>
    rw [applied] at answers
    obtain ⟨table', edited, -⟩ := answers
    rw [edited]
    exact ⟨_, rfl⟩

def Sample.shortNames : Set (List Char) := {name | name = ['a', 'b'] ∨ name = ['c']}

theorem Sample.shortNames_valid : Names Sample.shortNames where
  nonempty := by rintro _ (rfl | rfl) <;> decide
  short := by rintro _ (rfl | rfl) <;> decide
  noDelimiter := by rintro _ (rfl | rfl) <;> decide
  noNul := by rintro _ (rfl | rfl) <;> decide
  apart := by rintro _ (rfl | rfl) _ (rfl | rfl) <;> decide

def Sample.edits : List (Edit Sample.shortNames) :=
  [.AddBootstrap ⟨['a', 'b'], .inl rfl⟩, .AddChannel ⟨['c'], .inr rfl⟩]

def Sample.run : List (OwnerCall Contract.Sample.runtime PROGRAM_ID Contract.Sample.owner ×
    Edit Sample.shortNames) :=
  Sample.edits.map fun edit => (Sample.ownerCall (edit.instruction Sample.shortNames_valid), edit)

theorem lists_on_chain_two : ∃ created,
    (Sample.ownerCall (.InitTable false)).outcome Contract.Sample.funded = .ok ((), created) ∧
      getTableData Contract.Sample.runtime
          (OwnerCall.submitAll ((Sample.run.take 2).map Prod.fst) created.purge)
          Contract.Sample.owner =
        .ok (some ⟨[['a', 'b']], [['c']], 0⟩) := by
  obtain ⟨created, done⟩ := Sample.created_open
  have asks : ∀ asked ∈ Sample.run,
      asked.1.instruction = asked.2.instruction Sample.shortNames_valid := by
    intro asked member
    obtain ⟨edit, -, rfl⟩ := List.mem_map.mp member
    rfl
  have fits : ∀ n, (Lists.empty.after ((Sample.run.take n).map Prod.snd)).Fits := by
    intro n
    match n with
    | 0 | 1 => exact ⟨by decide +kernel, by decide +kernel⟩
    | n + 2 =>
      rw [List.take_of_length_le (by simp [Sample.run, Sample.edits])]
      exact ⟨by decide +kernel, by decide +kernel⟩
  have reads := (lists_on_chain Contract.Sample.runtime_documented Sample.shortNames_valid
    (Sample.ownerCall (.InitTable false)) rfl done Sample.run asks fits 2).1
  have servers : (Lists.empty.after ((Sample.run.take 2).map Prod.snd)).servers.toList =
      [['a', 'b']] := by decide +kernel
  have channels : (Lists.empty.after ((Sample.run.take 2).map Prod.snd)).channels.toList =
      [['c']] := by decide +kernel
  rw [servers, channels] at reads
  exact ⟨created, done, reads⟩

end Runs

end RoundTable.Client
