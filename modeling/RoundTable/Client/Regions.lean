import RoundTable.Client.Contract
import RoundTable.Contract.Regions

set_option autoImplicit false

namespace RoundTable.Client

open Contract

variable {region : List UInt8} {names : List (List Char)} {argument : List Char}

theorem entries_of_listing (listing : Listing region names) : entries region = names := by
  obtain ⟨n, rfl⟩ := listing.padded
  have unmarked : (Delimited.join ';' names ++ List.replicate n Utf8.nul).head? ≠
      some Utf8.byteOrderMark := by
    cases names with
    | nil => cases n <;> simp [List.replicate_succ, Utf8.nul, Utf8.byteOrderMark]
    | cons name names => simp [Utf8.byteOrderMark]
  have text : (Delimited.join ';' names ++ List.replicate n Utf8.nul).filter (· ≠ Utf8.nul) =
      Delimited.join ';' names := by
    rw [List.filter_append, List.filter_eq_self.mpr, List.filter_eq_nil_iff.mpr, List.append_nil]
    · simp [List.mem_replicate]
    · intro c member
      simpa using ne_of_mem_of_not_mem member (nul_not_mem_join listing.entry)
  rw [entries, Utf8.textDecode_encode unmarked, text,
    Delimited.splitOn_join fun name member => (listing.entry name member).noDelimiter]
  rfl

-- The decoder may drop a byte order mark, which is no delimiter.
theorem length_entries_encode (text : List Char) :
    (entries (Utf8.encode text)).length = text.count ';' := by
  have kept : ((Utf8.textDecode (Utf8.encode text)).filter (· ≠ Utf8.nul)).count ';' =
      (Utf8.textDecode (Utf8.encode text)).count ';' := List.count_filter (by decide)
  rw [entries, List.length_drop, Delimited.length_splitOn, kept,
    Utf8.count_textDecode_encode (by decide), Nat.add_sub_cancel]

def removed (region : List UInt8) (argument : List Char) : List UInt8 :=
  regionAfter region (strBufRm region (Utf8.encode argument))

theorem removed_of_absent (listing : Listing region names)
    (absent : ¬trimNuls argument <:+: Delimited.join ';' names) :
    removed region argument = region := by
  rw [removed, listing.strBufRm_eq, if_neg absent]
  rfl

theorem removed_of_present (listing : Listing region names)
    (present : trimNuls argument <:+: Delimited.join ';' names) :
    ∃ n, removed region argument = Utf8.encode
      (Delimited.removeAll (';' :: trimNuls argument) (Delimited.join ';' names) ++
        List.replicate n Utf8.nul) := by
  have shorter := Utf8.length_encode_le
    (Delimited.removeAll_sublist (';' :: trimNuls argument) (Delimited.join ';' names))
  have inside : (Utf8.encode (Delimited.join ';' names)).length ≤ region.length := by
    obtain ⟨n, rfl⟩ := listing.padded
    rw [Utf8.encode_append, List.length_append]
    exact Nat.le_add_right _ _
  rw [removed, listing.strBufRm_eq, if_pos present]
  exact ⟨_, overwrite_encode (shorter.trans inside)⟩

theorem entries_removed_of_apart (listing : Listing region names) (noDelimiter : ';' ∉ argument)
    (apart : ∀ name ∈ names, trimNuls argument <+: name → name = trimNuls argument) :
    entries (removed region argument) = names.filter (· ≠ trimNuls argument) := by
  have free : ';' ∉ trimNuls argument := fun inside =>
    noDelimiter ((trimNuls_sublist argument).subset inside)
  by_cases present : trimNuls argument <:+: Delimited.join ';' names
  · obtain ⟨n, isRemoved⟩ := removed_of_present listing present
    rw [Delimited.removeAll_join free (fun name member => (listing.entry name member).noDelimiter)
      (fun name member front => (apart name member front).symm)] at isRemoved
    apply entries_of_listing
    exact ⟨fun name member => listing.entry name (List.mem_of_mem_filter member), n, isRemoved⟩
  · rw [removed_of_absent listing present, entries_of_listing listing, List.filter_eq_self.mpr]
    intro name member
    rw [decide_eq_true_iff]
    rintro rfl
    exact present (Delimited.infix_join_of_mem member)

/-- A removal takes the named entry and no other exactly when the name starts no longer entry. -/
theorem entries_removed_iff (listing : Listing region names) (noDelimiter : ';' ∉ argument) :
    entries (removed region argument) = names.filter (· ≠ trimNuls argument) ↔
      ∀ name ∈ names, trimNuls argument <+: name → name = trimNuls argument := by
  refine ⟨fun kept name member starts => ?_, entries_removed_of_apart listing noDelimiter⟩
  have free : ';' ∉ trimNuls argument := fun inside =>
    noDelimiter ((trimNuls_sublist argument).subset inside)
  obtain ⟨n, isRemoved⟩ := removed_of_present listing
    (starts.isInfix.trans (Delimited.infix_join_of_mem member))
  -- every entry that the name starts has lost its delimiter
  have read : (entries (removed region argument)).length =
      (names.filter fun name => ¬trimNuls argument <+: name).length := by
    have noise : (List.replicate n Utf8.nul).count ';' = 0 :=
      List.count_eq_zero.mpr (by simp [List.mem_replicate, Utf8.nul])
    rw [isRemoved, length_entries_encode, List.count_append, noise, Nat.add_zero,
      Delimited.count_removeAll_join free fun name member => (listing.entry name member).noDelimiter]
  by_contra other
  have fewer : (names.filter fun name => ¬trimNuls argument <+: name).Sublist
      (names.filter (· ≠ trimNuls argument)) := by
    apply List.monotone_filter_right
    intro name apart
    rw [decide_eq_true_iff] at apart ⊢
    rintro rfl
    exact apart List.prefix_rfl
  have same := fewer.eq_of_length (by rw [← read, kept])
  have survives : name ∈ names.filter (· ≠ trimNuls argument) := by simp [member, other]
  rw [← same] at survives
  simp [starts] at survives

theorem removal_takes_another : Listing (Sample.listed [['a', 'b'], ['c']] 507) [['a', 'b'], ['c']] ∧
    ';' ∉ ['a'] ∧
    entries (removed (Sample.listed [['a', 'b'], ['c']] 507) ['a']) ≠
      [['a', 'b'], ['c']].filter (· ≠ trimNuls ['a']) :=
  ⟨Sample.listing (by decide) 507, by decide, by decide +kernel⟩

theorem entries_removed_iff_ab :
    entries (removed (Sample.listed [['a', 'b'], ['c']] 507) ['c']) =
        [['a', 'b'], ['c']].filter (· ≠ trimNuls ['c']) ↔
      ∀ name ∈ [['a', 'b'], ['c']], trimNuls ['c'] <+: name → name = trimNuls ['c'] :=
  entries_removed_iff (Sample.listing (by decide) 507) (by decide)

end RoundTable.Client
