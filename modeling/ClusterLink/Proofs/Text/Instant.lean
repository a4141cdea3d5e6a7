import ClusterLink.Time.Instant
import ClusterLink.Proofs.Text.Digits

/-! Instants are read back from their text, whatever the year and however many decimals the second
needs. Each part is read in front of arbitrary further text, and `read?_text` strings the parts
together. -/

namespace ClusterLink

theorem Text.skipSpace_cons {c : Char} (h : Text.isSpace c = false) (cs : List Char) :
    Text.skipSpace (c :: cs) = c :: cs := by
  simp [Text.skipSpace, h]

/-- A digit is no white space. -/
theorem Text.isSpace_of_isDigit {c : Char} (h : c.isDigit = true) : Text.isSpace c = false := by
  simp only [Char.isDigit, Bool.and_eq_true, decide_eq_true_eq, ge_iff_le, UInt32.le_iff_toNat_le]
    at h
  obtain ⟨hlow, hhigh⟩ := h
  have hlow : 48 ≤ c.toNat := hlow
  have hhigh : c.toNat ≤ 57 := hhigh
  simp [Text.isSpace]
  omega

/-- White space is looked for, and not found, in front of a padded number. -/
theorem Text.skipSpace_padded (width n : Nat) (rest : List Char) :
    Text.skipSpace ((Text.padded width n).toList ++ rest) = (Text.padded width n).toList ++ rest := by
  cases h : (Text.padded width n).toList with
  | nil => exact absurd h (Text.padded_ne_nil width n)
  | cons c cs =>
    have hc : c.isDigit = true := Text.isDigit_of_mem_padded (h ▸ List.mem_cons_self)
    rw [List.cons_append, Text.skipSpace_cons (Text.isSpace_of_isDigit hc)]

namespace Instant

variable {n : Nat}

theorem field?_padded (h : n < 100) (rest : List Char) :
    field? ((Text.padded 2 n).toList ++ rest) = some (n, rest) := by
  rw [field?, Text.skipSpace_padded, Text.natural?_padded (by decide) h]

theorem separator?_cons {c : Char} (h : Text.isSpace c = false) (rest : List Char) :
    separator? c (c :: rest) = some rest := by
  simp [separator?, Text.skipSpace_cons h, oneOf?]

/-- The year is read up to the hyphen behind it. -/
theorem year?_yearText (year : Int) (rest : List Char) :
    year? ((yearText year).toList ++ '-' :: rest) = some (year, '-' :: rest) := by
  -- a signed year may have any number of digits
  have hsigned (n : Nat) : Text.natural? ((Text.padded 4 n).toList ++ '-' :: rest).length
      ((Text.padded 4 n).toList ++ '-' :: rest) = some (n, '-' :: rest) := by
    rw [Text.natural?_append (Text.padded_ne_nil 4 n) (fun _ => Text.isDigit_of_mem_padded)
      (by simp) (.inr (by simp)), Text.valueOf_padded]
  unfold yearText
  split
  next h =>
    have hread : Text.natural? 4 ((Text.padded 4 year.toNat).toList ++ '-' :: rest)
        = some (year.toNat, '-' :: rest) := Text.natural?_padded (by decide) (by omega) _
    have hcast : (year.toNat : Int) = year := Int.toNat_of_nonneg h.1
    cases hp : (Text.padded 4 year.toNat).toList with
    | nil => exact absurd hp (Text.padded_ne_nil _ _)
    | cons c cs =>
      have hc : c.isDigit = true := Text.isDigit_of_mem_padded (hp ▸ List.mem_cons_self)
      rw [hp, List.cons_append] at hread
      rw [List.cons_append, year?, Text.skipSpace_cons (Text.isSpace_of_isDigit hc)]
      split
      next heq => obtain ⟨rfl, -⟩ := List.cons.inj heq; exact absurd hc (by decide)
      next heq => obtain ⟨rfl, -⟩ := List.cons.inj heq; exact absurd hc (by decide)
      next => simp [hread, hcast]
  next h =>
    by_cases hneg : year < 0
    · have hcast : -(year.natAbs : Int) = year := by omega
      rw [if_pos hneg, String.toList_append]
      show year? ('-' :: ((Text.padded 4 year.natAbs).toList ++ '-' :: rest)) = _
      simp only [year?, Text.skipSpace_cons (c := '-') rfl, hsigned, Option.map_some, hcast]
    · have hcast : (year.natAbs : Int) = year := by omega
      rw [if_neg hneg, String.toList_append]
      show year? ('+' :: ((Text.padded 4 year.natAbs).toList ++ '-' :: rest)) = _
      simp only [year?, Text.skipSpace_cons (c := '+') rfl, hsigned, Option.map_some, hcast]

/-- Up to nine decimals, filled up with zeros, count billionths. -/
theorem nano?_padded {w : Nat} (hw : 0 < w) (hnine : w ≤ 9) (hn : n < 10 ^ w)
    {c : Char} (hc : c.isDigit = false) (rest : List Char) :
    nano? ('.' :: ((Text.padded w n).toList ++ c :: rest))
      = some (n * 10 ^ (9 - w), c :: rest) := by
  have hlen := Text.length_padded hw hn
  have hdigits : ((Text.padded w n).toList ++ c :: rest).takeWhile Char.isDigit
      = (Text.padded w n).toList := by
    rw [List.takeWhile_append_of_pos fun _ => Text.isDigit_of_mem_padded]
    simp [hc]
  have hfilled : ((Text.padded w n).toList ++ List.replicate 9 '0').take 9
      = (Text.padded w n).toList ++ List.replicate (9 - w) '0' := by
    rw [List.take_append, hlen, List.take_of_length_le (by omega), List.take_replicate]
    congr 2
    omega
  simp only [nano?, hdigits, List.isEmpty_iff, Text.padded_ne_nil, ↓reduceIte, hfilled,
    Text.valueOf_append_zeros, Text.valueOf_padded, List.drop_left]

theorem nano?_decimals (hn : n < 1000000000) (rest : List Char) :
    nano? ((decimals n).toList ++ 'Z' :: rest) = some (n, 'Z' :: rest) := by
  have hZ : 'Z'.isDigit = false := by decide
  unfold decimals
  split
  next h => subst h; rfl
  split
  next h =>
    have hread :=
      nano?_padded (n := n / 1000000) (w := 3) (by decide) (by decide) (by omega) hZ rest
    rw [show n / 1000000 * 10 ^ (9 - 3) = n by omega] at hread
    simpa using hread
  split
  next h =>
    have hread := nano?_padded (n := n / 1000) (w := 6) (by decide) (by decide) (by omega) hZ rest
    rw [show n / 1000 * 10 ^ (9 - 6) = n by omega] at hread
    simpa using hread
  next =>
    have hread := nano?_padded (w := 9) (by decide) (by decide) hn hZ rest
    simpa using hread

theorem of?_self (t : Instant) :
    of? t.year t.month t.day t.hour t.minute t.second t.nano = some t := by
  rw [of?, dif_pos t.valid]

/-- Clocks that are not ahead show what they show. -/
theorem aheadBy?_zero (t : Instant) : t.aheadBy? 0 = some t := by
  obtain ⟨-, -, -, hhour, hminute, -, -⟩ := t.valid
  have hm : ((t.hour * 60 + t.minute : Int) - 0) % 1440 = (t.hour * 60 + t.minute : Nat) := by
    omega
  have hlow : ¬ (t.hour * 60 + t.minute : Int) - 0 < 0 := by omega
  have hhigh : ¬ 1440 ≤ (t.hour * 60 + t.minute : Int) - 0 := by omega
  simp only [aheadBy?, hm, hlow, hhigh, ↓reduceIte, Int.toNat_natCast]
  rw [show (t.hour * 60 + t.minute) / 60 = t.hour by omega,
    show (t.hour * 60 + t.minute) % 60 = t.minute by omega, of?_self]

/-- The text of an instant is read part by part, in the order in which it was written. -/
theorem read?_text (t : Instant) : read? t.text = some t := by
  obtain ⟨-, hmonth, hday, hhour, hminute, hsecond, hnano⟩ := t.valid
  have hdays : daysIn t.year t.month ≤ 31 := by
    unfold daysIn
    repeat' split
    all_goals decide
  have hhyphen : Text.isSpace '-' = false := rfl
  have hcolon : Text.isSpace ':' = false := rfl
  have hzone : Text.isSpace 'Z' = false := rfl
  have htext : t.text.toList = (yearText t.year).toList ++ '-' ::
      ((Text.padded 2 t.month).toList ++ '-' :: ((Text.padded 2 t.day).toList ++ 'T' ::
      ((Text.padded 2 t.hour).toList ++ ':' :: ((Text.padded 2 t.minute).toList ++ ':' ::
      ((Text.padded 2 t.second).toList ++ ((decimals t.nano).toList ++ ['Z'])))))) := by
    simp [text]
  have hT (rest : List Char) : oneOf? ['T', 't', ' '] ('T' :: rest) = some rest := rfl
  rw [read?, htext]
  refine bind_of_eq_some (year?_yearText t.year _) ?_
  refine bind_of_eq_some (separator?_cons hhyphen _) ?_
  refine bind_of_eq_some (field?_padded (by omega) _) ?_
  refine bind_of_eq_some (separator?_cons hhyphen _) ?_
  refine bind_of_eq_some (field?_padded (by omega) _) ?_
  refine bind_of_eq_some (hT _) ?_
  refine bind_of_eq_some (field?_padded (by omega) _) ?_
  refine bind_of_eq_some (separator?_cons hcolon _) ?_
  refine bind_of_eq_some (field?_padded (by omega) _) ?_
  refine bind_of_eq_some (separator?_cons hcolon _) ?_
  refine bind_of_eq_some (field?_padded (by omega) _) ?_
  refine bind_of_eq_some (nano?_decimals hnano []) ?_
  refine bind_of_eq_some (a := (0, [])) (by rw [Text.skipSpace_cons hzone]; rfl) ?_
  exact bind_of_eq_some (of?_self t) (aheadBy?_zero t)

end Instant

end ClusterLink
