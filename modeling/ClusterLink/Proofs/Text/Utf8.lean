import ClusterLink.Text.Utf8

/-! Texts and their octets in order. The octets of a lesser character come before those of a greater
one, whatever follows (`utf8EncodeChar_append_lt`), so texts are ordered as their octets are
(`compare_eq_lt_iff`). -/

namespace ClusterLink.Utf8

open String (utf8EncodeChar)

theorem toNat_lt (c : Char) : c.val.toNat < 0x110000 := by
  have hvalid := c.valid
  simp only [UInt32.isValidChar, Nat.isValidChar] at hvalid
  omega

/-- Of two characters the first octet that differs decides. -/
theorem utf8EncodeChar_append_lt {c d : Char} (h : c < d) (l l' : List UInt8) :
    utf8EncodeChar c ++ l < utf8EncodeChar d ++ l' := by
  have hlt : c.val.toNat < d.val.toNat := h
  have hd := toNat_lt d
  unfold utf8EncodeChar
  generalize c.val.toNat = m at hlt
  generalize d.val.toNat = n at hlt hd
  -- Digits to the base 64 are compared one after the other.
  have hdigit (k : Nat) : k / 4096 = k / 64 / 64 ∧ k / 262144 = k / 64 / 64 / 64 := by omega
  simp only [(hdigit _).1, (hdigit _).2]
  -- Characters of different lengths differ in the first octet, the others in their digits.
  repeat' split
  all_goals
    simp only [List.cons_append, List.nil_append, List.cons_lt_cons_iff, UInt8.lt_iff_toNat_lt,
      ← UInt8.toNat_inj, UInt8.toNat_ofNat']
    omega

theorem utf8EncodeChar_ne_nil (c : Char) : utf8EncodeChar c ≠ [] := by
  unfold utf8EncodeChar
  dsimp only
  repeat' split
  all_goals simp

theorem flatMap_lt {l l' : List Char} (h : l < l') :
    l.flatMap utf8EncodeChar < l'.flatMap utf8EncodeChar := by
  induction l generalizing l' with
  | nil =>
    cases l' with
    | nil => exact absurd h (List.not_lt_nil [])
    | cons d l' =>
      obtain ⟨b, bs, hb⟩ := List.exists_cons_of_ne_nil (utf8EncodeChar_ne_nil d)
      rw [List.flatMap_cons, hb]
      exact List.nil_lt_cons ..
  | cons c l ih =>
    cases l' with
    | nil => exact absurd h (List.not_lt_nil _)
    | cons d l' =>
      rw [List.flatMap_cons, List.flatMap_cons]
      rcases List.cons_lt_cons_iff.1 h with hlt | ⟨rfl, hrest⟩
      · exact utf8EncodeChar_append_lt hlt ..
      · exact List.append_left_lt (ih hrest)

theorem encode_lt_encode {a b : String} (h : a < b) : encode a < encode b :=
  flatMap_lt h

/-- Texts are ordered as their octets are. -/
theorem compare_eq_lt_iff {a b : String} : compare a b = .lt ↔ encode a < encode b := by
  refine ⟨fun h => encode_lt_encode (compareOfLessAndEq_eq_lt.1 h), fun h => ?_⟩
  cases hc : compare a b with
  | lt => rfl
  | eq =>
    obtain rfl := Std.LawfulEqOrd.eq_of_compare hc
    exact absurd h (List.lt_irrefl _)
  | gt =>
    have hlt : compare b a = .lt := Std.OrientedCmp.lt_of_gt hc
    exact absurd h (List.lt_asymm (encode_lt_encode (compareOfLessAndEq_eq_lt.1 hlt)))

end ClusterLink.Utf8
