import RoundTable.Contract.Readable

set_option autoImplicit false

namespace RoundTable.Contract

structure Entry (name : List Char) : Prop where
  nonempty : name ≠ []
  noDelimiter : ';' ∉ name
  noNul : Utf8.nul ∉ name

structure Listing (region : List UInt8) (names : List (List Char)) : Prop where
  entry : ∀ name ∈ names, Entry name
  padded : ∃ n, region = Utf8.encode (Delimited.join ';' names ++ List.replicate n Utf8.nul)

-- A function that fails has not written yet.
def regionAfter (array : List UInt8) (outcome : Except Failure (List UInt8)) : List UInt8 :=
  outcome.toOption.getD array

-- The names in a region, whose text is read as the two functions read it.
def regionNames (region : List UInt8) : Except Failure (List (List Char)) := do
  return ((trimNuls (← fromUtf8 region)).splitOn ';').drop 1

theorem encode_delimited_length (text name : List Char) :
    (Utf8.encode (text ++ ';' :: name)).length =
      (Utf8.encode text).length + 1 + (Utf8.encode name).length := by
  have delimiter : String.utf8EncodeChar ';' = [59] := by decide
  rw [Utf8.encode_append, Utf8.encode_cons, delimiter, List.length_append, List.length_append,
    List.length_singleton, Nat.add_assoc]

theorem nul_not_mem_join {names : List (List Char)} (entry : ∀ name ∈ names, Entry name) :
    Utf8.nul ∉ Delimited.join ';' names := by
  intro inside
  obtain ⟨name, member, isNul⟩ := List.mem_flatMap.mp inside
  obtain isDelimiter | inName := List.mem_cons.mp isNul
  · revert isDelimiter
    decide
  · exact (entry name member).noNul inName

section Listing

variable {region sRaw : List UInt8} {names : List (List Char)} {argument : List Char}

theorem Listing.decoded (listing : Listing region names) :
    ∃ d, region = Utf8.encode d ∧ trimNuls d = Delimited.join ';' names := by
  obtain ⟨n, rfl⟩ := listing.padded
  exact ⟨_, rfl, trimNuls_of_not_nul (nul_not_mem_join listing.entry) n⟩

theorem Listing.strBufAdd_eq (listing : Listing region names) (argument : List Char) :
    strBufAdd region (Utf8.encode argument) =
      if trimNuls argument <:+: Delimited.join ';' names then .error (.error .EntryAlreadyExists)
      else .ok (overwrite region
        (Utf8.encode (Delimited.join ';' names ++ ';' :: trimNuls argument))) := by
  obtain ⟨d, rfl, text⟩ := listing.decoded
  rw [strBufAdd_encode, text]

theorem Listing.strBufRm_eq (listing : Listing region names) (argument : List Char) :
    strBufRm region (Utf8.encode argument) =
      if trimNuls argument <:+: Delimited.join ';' names then
        .ok (overwrite region (Utf8.encode
          (Delimited.removeAll (';' :: trimNuls argument) (Delimited.join ';' names))))
      else .error (.error .EntryDoesntExist) := by
  obtain ⟨d, rfl, text⟩ := listing.decoded
  rw [strBufRm_encode, text]

/-- The two membership tests are exact for a name that is one of the entries or a part of none. -/
theorem membership_exact_iff (listing : Listing region names)
    (entry : Entry (trimNuls argument)) :
    (strBufAdd region (Utf8.encode argument) = .error (.error .EntryAlreadyExists) ↔
        trimNuls argument ∈ names) ∧
      (strBufRm region (Utf8.encode argument) = .error (.error .EntryDoesntExist) ↔
        trimNuls argument ∉ names) ↔
    ((∃ listed ∈ names, trimNuls argument <:+: listed) → trimNuls argument ∈ names) := by
  rw [listing.strBufAdd_eq, listing.strBufRm_eq,
    ← Delimited.infix_join_iff entry.nonempty entry.noDelimiter]
  by_cases present : trimNuls argument <:+: Delimited.join ';' names
  · simp [present]
  · have absent : trimNuls argument ∉ names := by
      intro member
      rw [Delimited.infix_join_iff entry.nonempty entry.noDelimiter] at present
      exact present ⟨_, member, List.infix_rfl⟩
    simp [present, absent]

def Sample.listed (names : List (List Char)) (n : Nat) : List UInt8 :=
  Utf8.encode (Delimited.join ';' names ++ List.replicate n Utf8.nul)

theorem Sample.listing {names : List (List Char)}
    (entry : ∀ name ∈ names, name ≠ [] ∧ ';' ∉ name ∧ Utf8.nul ∉ name) (n : Nat) :
    Listing (Sample.listed names n) names where
  entry name member := ⟨(entry name member).1, (entry name member).2.1, (entry name member).2.2⟩
  padded := ⟨n, rfl⟩

theorem membership_inexact : Listing (Sample.listed [['a', 'b']] 509) [['a', 'b']] ∧
    Entry (trimNuls ['a']) ∧
    ¬(strBufAdd (Sample.listed [['a', 'b']] 509) (Utf8.encode ['a']) =
      .error (.error .EntryAlreadyExists) ↔ trimNuls ['a'] ∈ [['a', 'b']]) ∧
    ¬(strBufRm (Sample.listed [['a', 'b']] 509) (Utf8.encode ['a']) =
      .error (.error .EntryDoesntExist) ↔ trimNuls ['a'] ∉ [['a', 'b']]) :=
  ⟨Sample.listing (by decide) 509, ⟨by decide, by decide, by decide⟩, by decide +kernel,
    by decide +kernel⟩

theorem membership_exact_iff_ab :
    (strBufAdd (Sample.listed [['a', 'b']] 509) (Utf8.encode ['a', 'b']) =
        .error (.error .EntryAlreadyExists) ↔ trimNuls ['a', 'b'] ∈ [['a', 'b']]) ∧
      (strBufRm (Sample.listed [['a', 'b']] 509) (Utf8.encode ['a', 'b']) =
        .error (.error .EntryDoesntExist) ↔ trimNuls ['a', 'b'] ∉ [['a', 'b']]) :=
  (membership_exact_iff (Sample.listing (by decide) 509) ⟨by decide, by decide, by decide⟩).mpr
    fun _ => by decide

theorem regionNames_overwrite (region : List UInt8) {names : List (List Char)}
    (entry : ∀ name ∈ names, Entry name)
    (fits : (Utf8.encode (Delimited.join ';' names)).length ≤ region.length) :
    regionNames (overwrite region (Utf8.encode (Delimited.join ';' names))) = .ok names := by
  rw [regionNames, overwrite_encode fits, fromUtf8_encode, Attempt.ok_bind,
    trimNuls_of_not_nul (nul_not_mem_join entry),
    Delimited.splitOn_join fun name member => (entry name member).noDelimiter]
  rfl

-- What a region too short for its text keeps of it are not the names in the text.
theorem regionNames_cut {region : List UInt8} {names : List (List Char)}
    (entry : ∀ name ∈ names, Entry name)
    (long : region.length < (Utf8.encode (Delimited.join ';' names)).length) :
    regionNames (overwrite region (Utf8.encode (Delimited.join ';' names))) ≠ .ok names := by
  intro same
  have cut : overwrite region (Utf8.encode (Delimited.join ';' names)) =
      (Utf8.encode (Delimited.join ';' names)).take region.length := by
    rw [overwrite, Nat.sub_eq_zero_of_le long.le, List.replicate_zero, List.append_nil]
  cases decoded : fromUtf8 (overwrite region (Utf8.encode (Delimited.join ';' names))) with
  | error failure => simp [regionNames, decoded] at same
  | ok kept =>
    simp only [regionNames, decoded, Attempt.ok_bind, Attempt.pure_eq_ok, Except.ok.injEq] at same
    have isKept := cut.symm.trans (fromUtf8_ok.mp decoded)
    have front : kept <+: Delimited.join ';' names :=
      Utf8.prefix_of_encode (isKept ▸ List.take_prefix _ _)
    have clean : trimNuls kept = kept := by
      simpa using trimNuls_of_not_nul
        (fun inside => nul_not_mem_join entry (front.subset inside)) 0
    rw [clean] at same
    cases kept with
    | nil =>
      obtain rfl : names = [] := by simpa using same.symm
      simp at long
    | cons c kept =>
      obtain rfl : c = ';' := by
        cases names with
        | nil => simp at front
        | cons name names => exact (List.cons_prefix_cons.mp front).1
      have split : (';' :: kept).splitOn ';' = [] :: kept.splitOn ';' := by
        simpa using List.splitOn_append_cons_self (a := ';') [] kept
      rw [split, List.drop_succ_cons, List.drop_zero] at same
      have whole := Delimited.join_splitOn ';' kept
      rw [same] at whole
      have length := congrArg List.length isKept
      rw [← whole, List.length_take_of_le long.le] at length
      omega

def AddsInFull (region sRaw : List UInt8) (names : List (List Char)) (name : List Char) : Prop :=
  match strBufAdd region sRaw with
  | .ok region' => regionNames region' = .ok (names ++ [name])
  | .error failure =>
    (∃ reported, failure = .error reported) ∧ regionAfter region (.error failure) = region

/-- An addition stores the whole name or fails exactly when it fails or the name fits behind the
entries. -/
theorem addsInFull_iff (listing : Listing region names) (entry : Entry (trimNuls argument)) :
    AddsInFull region (Utf8.encode argument) names (trimNuls argument) ↔
      (∃ listed ∈ names, trimNuls argument <:+: listed) ∨
        (Utf8.encode (Delimited.join ';' names)).length + 1 +
          (Utf8.encode (trimNuls argument)).length ≤ region.length := by
  rw [AddsInFull, listing.strBufAdd_eq, ← encode_delimited_length,
    ← Delimited.infix_join_iff entry.nonempty entry.noDelimiter]
  by_cases present : trimNuls argument <:+: Delimited.join ';' names
  · simp [present, regionAfter, Except.toOption]
  · have entries : ∀ name ∈ names ++ [trimNuls argument], Entry name := by
      intro name member
      obtain listed | new := List.mem_append.mp member
      · exact listing.entry name listed
      · exact List.mem_singleton.mp new ▸ entry
    have joined : Delimited.join ';' names ++ ';' :: trimNuls argument =
        Delimited.join ';' (names ++ [trimNuls argument]) := by
      simp [Delimited.join_append]
    simp only [present, if_false, false_or, joined]
    constructor
    · intro stored
      by_contra long
      exact regionNames_cut entries (by omega) stored
    · exact regionNames_overwrite region entries

def Sample.full : List (List Char) := ['a', 'b', 'c', 'd'].map (List.replicate 127)

theorem Sample.full_listing : Listing (Sample.listed Sample.full 0) Sample.full :=
  Sample.listing (by decide +kernel) 0

theorem addition_lost : Listing (Sample.listed Sample.full 0) Sample.full ∧
    (Sample.listed Sample.full 0).length = 512 ∧ Entry (trimNuls ['e']) ∧
    strBufAdd (Sample.listed Sample.full 0) (Utf8.encode ['e']) = .ok (Sample.listed Sample.full 0) ∧
    regionNames (Sample.listed Sample.full 0) = .ok Sample.full ∧
    ¬AddsInFull (Sample.listed Sample.full 0) (Utf8.encode ['e']) Sample.full (trimNuls ['e']) := by
  have added : strBufAdd (Sample.listed Sample.full 0) (Utf8.encode ['e']) =
      .ok (Sample.listed Sample.full 0) := by decide +kernel
  have names : regionNames (Sample.listed Sample.full 0) = .ok Sample.full := by decide +kernel
  refine ⟨Sample.full_listing, by decide +kernel, ⟨by decide, by decide, by decide⟩, added, names, ?_⟩
  rw [AddsInFull, added]
  simp [names]

theorem addsInFull_iff_ab :
    AddsInFull (Sample.listed [['a', 'b']] 509) (Utf8.encode ['c']) [['a', 'b']] (trimNuls ['c']) := by
  have fits : (Utf8.encode (Delimited.join ';' [['a', 'b']])).length + 1 +
      (Utf8.encode (trimNuls ['c'])).length ≤ (Sample.listed [['a', 'b']] 509).length := by
    decide +kernel
  have listing : Listing (Sample.listed [['a', 'b']] 509) [['a', 'b']] :=
    Sample.listing (by decide) 509
  have entry : Entry (trimNuls ['c']) := ⟨by decide, by decide, by decide⟩
  rw [addsInFull_iff listing entry]
  exact .inr fits

end Listing

theorem strBufRm_undoes_strBufAdd {array region : List UInt8} {text argument : List Char} {n : Nat}
    (padded : array = Utf8.encode text ++ List.replicate n 0)
    (bare : text.head? ≠ some Utf8.nul ∧ text.getLast? ≠ some Utf8.nul)
    (nonempty : trimNuls argument ≠ []) (noDelimiter : ';' ∉ trimNuls argument)
    (fits : (Utf8.encode text).length + 1 + (Utf8.encode (trimNuls argument)).length ≤ array.length)
    (added : strBufAdd array (Utf8.encode argument) = .ok region) :
    strBufRm region (Utf8.encode argument) = .ok array := by
  have isArray : array = Utf8.encode (text ++ List.replicate n Utf8.nul) := by
    rw [padded, Utf8.encode_append, Utf8.encode_nuls]
  have trimmed : trimNuls (text ++ List.replicate n Utf8.nul) = text := by
    rw [trimNuls_append_nuls, trimNuls_eq_self_iff.mpr bare]
  rw [isArray, strBufAdd_encode, trimmed, ← isArray] at added
  split_ifs at added with present
  obtain rfl := Except.ok.inj added
  rw [← encode_delimited_length] at fits
  -- the new text neither starts nor ends with a NUL either
  have ends : trimNuls (text ++ ';' :: trimNuls argument) = text ++ ';' :: trimNuls argument := by
    rw [trimNuls_eq_self_iff]
    constructor
    · cases text with
      | nil => simp [Utf8.nul]
      | cons c text => exact bare.1
    · rw [List.getLast?_append_cons, List.getLast?_cons_of_ne_nil nonempty]
      exact getLast?_trimNuls argument
  have contained : trimNuls argument <:+: text ++ ';' :: trimNuls argument :=
    (List.suffix_cons ';' _).isInfix.trans (List.suffix_append text _).isInfix
  have length := length_overwrite array (Utf8.encode (text ++ ';' :: trimNuls argument))
  rw [overwrite_encode fits] at length ⊢
  rw [strBufRm_encode, trimNuls_append_nuls, ends, if_pos contained,
    Delimited.removeAll_append noDelimiter present, overwrite_congr length, padded,
    overwrite_append_zeros]

theorem strBufRm_undoes_strBufAdd_ab : ∃ region,
    strBufAdd (Utf8.encode ['a', ';', 'b'] ++ List.replicate 509 0) (Utf8.encode ['c']) = .ok region ∧
      strBufRm region (Utf8.encode ['c']) =
        .ok (Utf8.encode ['a', ';', 'b'] ++ List.replicate 509 0) := by
  have succeeds : (strBufAdd (Utf8.encode ['a', ';', 'b'] ++ List.replicate 509 0)
      (Utf8.encode ['c'])).isOk = true := by decide +kernel
  obtain ⟨region, added⟩ := Attempt.exists_of_isOk succeeds
  exact ⟨region, added, strBufRm_undoes_strBufAdd (n := 509) rfl (by decide) (by decide) (by decide)
    (by decide +kernel) added⟩

end RoundTable.Contract
