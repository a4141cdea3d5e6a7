import ClusterLink.Proofs.Text.Utf8

/-! Text survives as octets: the machine that decodes finds in the octets of a character that
character (`scan_utf8EncodeChar`), whatever follows, and so in the octets of a text that text,
without a gap. U+FFFD in a text is a character like any other. -/

namespace ClusterLink.Utf8

open String (utf8EncodeChar)

/-! ## One octet -/

section Octet

variable {b : UInt8} {p : Begun} {rest : List UInt8}

theorem start_of_lt (h : b.toNat < 0x80) : start b = .inl (some (Char.ofNat b.toNat)) :=
  if_pos (UInt8.lt_iff_toNat_lt.2 h)

theorem start_of_two (h : 0xC2 ≤ b.toNat) (h' : b.toNat < 0xE0) :
    start b = .inr ⟨b.toNat - 0xC0, 0x80, 0xBF, 0⟩ := by
  simp only [start, UInt8.lt_iff_toNat_lt, UInt8.reduceToNat]
  rw [if_neg (by omega), if_neg (by omega), if_pos h']

/-- The first octet of three leaves out what is written with fewer, and the surrogates. -/
theorem start_of_three (h : 0xE0 ≤ b.toNat) (h' : b.toNat < 0xF0) :
    start b = .inr ⟨b.toNat - 0xE0, if b.toNat = 0xE0 then 0xA0 else 0x80,
      if b.toNat = 0xED then 0x9F else 0xBF, 1⟩ := by
  simp only [start, UInt8.lt_iff_toNat_lt, ← UInt8.toNat_inj, UInt8.reduceToNat]
  rw [if_neg (by omega), if_neg (by omega), if_neg (by omega)]
  by_cases h0 : b.toNat = 0xE0
  · simp [h0]
  · by_cases hd : b.toNat = 0xED <;> simp [h0, hd, h']

/-- The first octet of four leaves out what is written with fewer, and what is no character. -/
theorem start_of_four (h : 0xF0 ≤ b.toNat) (h' : b.toNat < 0xF5) :
    start b = .inr ⟨b.toNat - 0xF0, if b.toNat = 0xF0 then 0x90 else 0x80,
      if b.toNat = 0xF4 then 0x8F else 0xBF, 2⟩ := by
  simp only [start, UInt8.lt_iff_toNat_lt, ← UInt8.toNat_inj, UInt8.reduceToNat]
  rw [if_neg (by omega), if_neg (by omega), if_neg (by omega), if_neg (by omega),
    if_neg (by omega), if_neg (by omega)]
  by_cases h0 : b.toNat = 0xF0
  · simp [h0]
  · by_cases h4 : b.toNat = 0xF4
    · simp [h4]
    · simp [h0, h4, show b.toNat < 0xF4 by omega]

theorem scan_begin (h : start b = .inr p) : scan none (b :: rest) = scan (some p) rest := by
  rw [scan, h]

end Octet

/-! ## One character -/

theorem toNat_octet {n : Nat} (h : n < 256) : (UInt8.ofNat n).toNat = n :=
  UInt8.toNat_ofNat_of_lt' h

section Character

variable {v : Nat} (rest : List UInt8)

theorem scan_one (h : v ≤ 0x7F) :
    scan none (.ofNat v :: rest) = some (Char.ofNat v) :: scan none rest := by
  have hv : (UInt8.ofNat v).toNat = v := toNat_octet (by omega)
  rw [scan, start_of_lt (by omega), hv]

theorem octet_between {low high : UInt8} (hlow : low.toNat ≤ v % 64 + 0x80)
    (hhigh : v % 64 + 0x80 ≤ high.toNat) :
    low ≤ .ofNat (v % 64 + 0x80) ∧ .ofNat (v % 64 + 0x80) ≤ high := by
  rw [UInt8.le_iff_toNat_le, UInt8.le_iff_toNat_le, toNat_octet (by omega)]
  exact ⟨hlow, hhigh⟩

/-- The last digit of a number to the base 64, after its other digits. -/
theorem digits_octet : v / 64 * 64 + ((UInt8.ofNat (v % 64 + 0x80)).toNat - 0x80) = v := by
  rw [toNat_octet (by omega)]
  omega

theorem scan_last {low high : UInt8} (hlow : low.toNat ≤ v % 64 + 0x80)
    (hhigh : v % 64 + 0x80 ≤ high.toNat) :
    scan (some ⟨v / 64, low, high, 0⟩) (.ofNat (v % 64 + 0x80) :: rest) =
      some (Char.ofNat v) :: scan none rest := by
  rw [scan, if_pos (octet_between hlow hhigh)]
  simp only [digits_octet]

theorem scan_next {low high : UInt8} {more : Nat} (hlow : low.toNat ≤ v % 64 + 0x80)
    (hhigh : v % 64 + 0x80 ≤ high.toNat) :
    scan (some ⟨v / 64, low, high, more + 1⟩) (.ofNat (v % 64 + 0x80) :: rest) =
      scan (some ⟨v, 0x80, 0xBF, more⟩) rest := by
  rw [scan, if_pos (octet_between hlow hhigh)]
  simp only [digits_octet]

theorem scan_two (h : 0x7F < v) (h' : v ≤ 0x7FF) :
    scan none (.ofNat (v / 64 % 32 + 0xC0) :: .ofNat (v % 64 + 0x80) :: rest) =
      some (Char.ofNat v) :: scan none rest := by
  have hb : (UInt8.ofNat (v / 64 % 32 + 0xC0)).toNat = v / 64 + 0xC0 := by
    rw [toNat_octet (by omega)]
    omega
  rw [scan_begin (start_of_two (by omega) (by omega)), hb, Nat.add_sub_cancel]
  exact scan_last rest (by simp) (by simp; omega)

theorem scan_three (h : 0x7FF < v) (h' : v ≤ 0xFFFF) (hchar : v < 0xD800 ∨ 0xDFFF < v) :
    scan none (.ofNat (v / 4096 % 16 + 0xE0) :: .ofNat (v / 64 % 64 + 0x80) ::
      .ofNat (v % 64 + 0x80) :: rest) = some (Char.ofNat v) :: scan none rest := by
  have hb : (UInt8.ofNat (v / 4096 % 16 + 0xE0)).toNat = v / 64 / 64 + 0xE0 := by
    rw [toNat_octet (by omega)]
    omega
  rw [scan_begin (start_of_three (by omega) (by omega)), hb, Nat.add_sub_cancel, scan_next]
  · exact scan_last rest (by simp) (by simp; omega)
  · split <;> simp <;> omega
  · split <;> simp <;> omega

theorem scan_four (h : 0xFFFF < v) (h' : v < 0x110000) :
    scan none (.ofNat (v / 262144 % 8 + 0xF0) :: .ofNat (v / 4096 % 64 + 0x80) ::
      .ofNat (v / 64 % 64 + 0x80) :: .ofNat (v % 64 + 0x80) :: rest) =
      some (Char.ofNat v) :: scan none rest := by
  have hb : (UInt8.ofNat (v / 262144 % 8 + 0xF0)).toNat = v / 64 / 64 / 64 + 0xF0 := by
    rw [toNat_octet (by omega)]
    omega
  rw [scan_begin (start_of_four (by omega) (by omega)), hb, Nat.add_sub_cancel,
    show v / 4096 = v / 64 / 64 by omega, scan_next, scan_next _ (by simp) (by simp; omega)]
  · exact scan_last rest (by simp) (by simp; omega)
  · split <;> simp <;> omega
  · split <;> simp <;> omega

end Character

/-- The octets of a character are found to be that character. -/
theorem scan_utf8EncodeChar (c : Char) (rest : List UInt8) :
    scan none (utf8EncodeChar c ++ rest) = some c :: scan none rest := by
  have hlt := toNat_lt c
  have hchar : c.val.toNat < 0xD800 ∨ 0xDFFF < c.val.toNat := c.valid.imp_right And.left
  have hc : Char.ofNat c.val.toNat = c := c.ofNat_toNat
  unfold utf8EncodeChar
  generalize c.val.toNat = v at hlt hchar hc
  subst hc
  dsimp only
  split
  next h => exact scan_one rest h
  split
  next h h' => exact scan_two rest (Nat.lt_of_not_le h) h'
  split
  next h h' => exact scan_three rest (Nat.lt_of_not_le h) h' hchar
  next h => exact scan_four rest (Nat.lt_of_not_le h) hlt

/-! ## A text -/

theorem scan_encode (cs : List Char) :
    scan none (cs.flatMap utf8EncodeChar) = cs.map some := by
  induction cs with
  | nil => rfl
  | cons c cs ih => rw [List.flatMap_cons, scan_utf8EncodeChar, ih, List.map_cons]

/-- The octets of a text read as that text. -/
theorem decodeLossy_encode (text : String) : decodeLossy (encode text) = text := by
  rw [decodeLossy, encode, scan_encode, List.map_map]
  exact (congrArg String.ofList (List.map_id _)).trans String.ofList_toList

end ClusterLink.Utf8
