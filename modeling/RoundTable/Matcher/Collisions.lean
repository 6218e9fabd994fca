import RoundTable.Matcher.Invariant

set_option autoImplicit false

namespace RoundTable.Matcher

def Overlaps (short : PublicKey) (m : String) (long : PublicKey) (n : String) : Prop :=
  ∃ k, 0 < k ∧ short.Heads long k ∧ m = String.ofList (long.tail k) ++ n

theorem getMatchID_toList (advertiser : PublicKey) (m : String) :
    (getMatchID advertiser (.string m)).toList =
      Base58.encode advertiser.bytes ++ m.toList := by
  simp [getMatchID, MatchField.toString, PublicKey.toString]

theorem getMatchID_inj_of_same {advertiser : PublicKey} {m n : String}
    (same : getMatchID advertiser (.string m) = getMatchID advertiser (.string n)) : m = n := by
  have texts := congrArg String.toList same
  rw [getMatchID_toList, getMatchID_toList, List.append_cancel_left_eq] at texts
  exact String.toList_inj.mp texts

namespace Overlaps

variable {short long : PublicKey} {m n : String}

theorem same_id (overlaps : Overlaps short m long n) :
    getMatchID short (.string m) = getMatchID long (.string n) := by
  obtain ⟨k, -, heads, rfl⟩ := overlaps
  apply String.toList_inj.mp
  rw [getMatchID_toList, getMatchID_toList, heads.toString]
  simp

theorem ne (overlaps : Overlaps short m long n) : short ≠ long := by
  obtain ⟨k, later, heads, -⟩ := overlaps
  rintro rfl
  have smaller := Nat.div_lt_self (Nat.pos_of_ne_zero heads.positive)
    (Nat.one_lt_pow (Nat.ne_of_gt later) (by decide : 1 < 58))
  exact absurd heads.value (Nat.ne_of_gt smaller)

theorem of_append {rest : List Char} (nonempty : rest ≠ [])
    (longer : Base58.encode long.bytes = Base58.encode short.bytes ++ rest)
    (shorter : m.toList = rest ++ n.toList) : Overlaps short m long n := by
  obtain ⟨heads, same⟩ := PublicKey.heads_of_prefix nonempty longer
  refine ⟨rest.length, List.length_pos_iff.mpr nonempty, heads, ?_⟩
  apply String.toList_inj.mp
  rw [shorter, ← same]
  simp

end Overlaps

theorem getMatchID_eq_iff (a b : PublicKey) (m n : String) :
    getMatchID a (.string m) = getMatchID b (.string n) ↔
      a = b ∧ m = n ∨ Overlaps a m b n ∨ Overlaps b n a m := by
  constructor
  · intro same
    by_cases keys : a = b
    · subst keys
      exact .inl ⟨rfl, getMatchID_inj_of_same same⟩
    · have texts := congrArg String.toList same
      rw [getMatchID_toList, getMatchID_toList, List.append_eq_append_iff] at texts
      have differ {rest : List Char} {x y : PublicKey} (other : x ≠ y)
          (longer : Base58.encode y.bytes = Base58.encode x.bytes ++ rest) : rest ≠ [] := by
        rintro rfl
        rw [List.append_nil] at longer
        exact other (PublicKey.toString_inj (congrArg String.ofList longer.symm))
      rcases texts with ⟨rest, longer, shorter⟩ | ⟨rest, longer, shorter⟩
      · exact .inr (.inl (.of_append (differ keys longer) longer shorter))
      · exact .inr (.inr (.of_append (differ (Ne.symm keys) longer) longer shorter))
  · rintro (⟨rfl, rfl⟩ | overlaps | overlaps)
    · rfl
    · exact overlaps.same_id
    · exact overlaps.same_id.symm

theorem Effect.advert_elsewhere {Counter : Type} {manager after : MatchManager Counter}
    {msg : MatchAdvertiseMessage Counter} {actions : List (Output Counter)}
    (effect : Effect manager (.receive (.advertise msg)) actions after) (inv : manager.Inv)
    {matchId : String} (other : matchId ≠ getMatchID msg.advertiser msg.match_) :
    after.matchMap.lookup matchId = manager.matchMap.lookup matchId := by
  cases effect with
  | quiet _ quiet => exact quiet.elim
  | advertised _ seen =>
    rw [← advertised_matchId inv.keyed msg seen] at other
    simp [MatchManager.put, AList.lookup_insert_ne other]

structure Apart (Counter : Type) [IntCast Counter] (a : PublicKey) (m : String) (b : PublicKey)
    (n : String) : Prop where
  ids : getMatchID a (.string m) = getMatchID b (.string n) → a = b ∧ m = n
  entries : (a, m) ≠ (b, n) → ∀ id (inputs : List (Input Counter)) (env : Env Counter)
    (counter : Counter), env.realm = .pristine →
      let manager := (MatchManager.react.run (MatchManager.new id) inputs).1
      let after := (manager.handle env (.receive (.advertise ⟨b, .string n, counter⟩))).1
      after.matchMap.lookup (getMatchID a (.string m)) =
        manager.matchMap.lookup (getMatchID a (.string m))

/-- Two matches are kept apart exactly when neither advertiser's text is the head of the other's
with their matches making up for the rest. -/
theorem apart_iff {Counter : Type} [IntCast Counter] (a b : PublicKey) (m n : String) :
    Apart Counter a m b n ↔ ¬Overlaps a m b n ∧ ¬Overlaps b n a m := by
  constructor
  · intro apart
    exact ⟨fun overlaps => overlaps.ne (apart.ids overlaps.same_id).1,
      fun overlaps => overlaps.ne (apart.ids overlaps.same_id.symm).1.symm⟩
  · rintro ⟨forward, backward⟩
    have ids (same : getMatchID a (.string m) = getMatchID b (.string n)) : a = b ∧ m = n := by
      rcases (getMatchID_eq_iff a b m n).mp same with equal | overlaps | overlaps
      · exact equal
      · exact absurd overlaps forward
      · exact absurd overlaps backward
    refine ⟨ids, fun different id inputs env counter clean => ?_⟩
    have other : getMatchID a (.string m) ≠ getMatchID b (.string n) := fun same =>
      different (Prod.ext (ids same).1 (ids same).2)
    have inv : (MatchManager.react.run (MatchManager.new id : MatchManager Counter) inputs).1.Inv :=
      MatchManager.run_inv id inputs
    exact (handle_effect env clean _ inv _).advert_elsewhere inv other

theorem matchIds_collide :
    ¬∀ (a b : PublicKey) (m n : String),
      getMatchID a (.string m) = getMatchID b (.string n) → a = b ∧ m = n := by
  intro distinct
  have same : getMatchID (.small 1) (.string "chess") = getMatchID (.small 93) (.string "hess") := by
    decide +kernel
  exact absurd (distinct _ _ _ _ same).1 (by decide)

end RoundTable.Matcher
