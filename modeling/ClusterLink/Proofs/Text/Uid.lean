import ClusterLink.Uid
import ClusterLink.Proofs.Text.Digits

/-! Identifiers are read back from their text: 32 digits of base 16 in five groups. -/

namespace ClusterLink.Uid

theorem hexDigit?_digitChar : ∀ d < 16, Json.hexDigit? d.digitChar = some d := by decide

theorem length_digits (uid : Uid) : uid.digits.length = 32 := by
  have h := Nat.toDigits_length 16 uid.bits.toNat 32 (by decide) uid.bits.isLt
  simp [digits]
  omega

theorem ofDigits?_digits (uid : Uid) : ofDigits? uid.digits = some uid := by
  have hvalue : uid.digits.foldlM (fun n c => (Json.hexDigit? c).map (n * 16 + ·)) 0
      = some uid.bits.toNat := by
    rw [digits, List.foldlM_append, Text.foldlM_zeros (hexDigit?_digitChar 0 (by decide))]
    exact Text.foldlM_toDigits (by decide) hexDigit?_digitChar _
  simp [ofDigits?, length_digits, hvalue]

/-- Groups of 8, 4, 4, 4 and 12 digits are read as the digits without their hyphens. -/
theorem ofGroups?_groups {a b c d e : List Char} (ha : a.length = 8) (hb : b.length = 4)
    (hc : c.length = 4) (hd : d.length = 4) (he : e.length = 12) :
    ofGroups? (a ++ '-' :: b ++ '-' :: c ++ '-' :: d ++ '-' :: e)
      = ofDigits? (a ++ b ++ c ++ d ++ e) := by
  simp (disch := omega) [ofGroups?, List.drop_append, List.drop_of_length_le, ha, hb, hc, hd,
    he]

/-- The five groups of a text are its digits. -/
theorem groups_digits (ds : List Char) :
    ds.take 8 ++ (ds.drop 8).take 4 ++ (ds.drop 12).take 4 ++ (ds.drop 16).take 4 ++ ds.drop 20
      = ds := by
  have hcut (i : Nat) : (ds.drop i).take 4 ++ ds.drop (i + 4) = ds.drop i := by
    rw [← List.drop_drop, List.take_append_drop]
  simp only [List.append_assoc, hcut, List.take_append_drop]

theorem read?_text (uid : Uid) : read? uid.text = some uid := by
  have hlen := uid.length_digits
  have hgroups := ofGroups?_groups (a := uid.digits.take 8) (b := (uid.digits.drop 8).take 4)
    (c := (uid.digits.drop 12).take 4) (d := (uid.digits.drop 16).take 4)
    (e := uid.digits.drop 20) (by simp [hlen]) (by simp [hlen]) (by simp [hlen]) (by simp [hlen])
    (by simp [hlen])
  rw [groups_digits, ofDigits?_digits] at hgroups
  have htext : ofGroups? uid.text.toList = some uid := by simpa [text] using hgroups
  have hlength : uid.text.toList.length = 36 := by simp [text, hlen]
  simp only [read?, hlength, htext, Nat.reduceEqDiff, ↓reduceIte]

end ClusterLink.Uid
