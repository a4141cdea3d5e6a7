import ClusterLink.Text.Digits
import Mathlib.Data.Nat.Digits.Defs

/-! Digits read back as the number they were written for: in any base, padded with zeros in front
or filled up with zeros at the end, and with more text behind them. -/

namespace ClusterLink

/-- A reader that succeeds hands what it read to the next one. -/
theorem bind_of_eq_some {α β : Type} {x : Option α} {a : α} {f : α → Option β} {y : Option β}
    (h : x = some a) (h' : f a = y) : (x >>= f) = y := by
  rw [h]
  exact h'

namespace Text

/-- Digits of a base, each read by `read`, add up to the number they were written for. -/
theorem foldlM_toDigits {b : Nat} (hb : 1 < b) {read : Char → Option Nat}
    (hread : ∀ d < b, read d.digitChar = some d) (n : Nat) :
    (Nat.toDigits b n).foldlM (fun k c => (read c).map (k * b + ·)) 0 = some n := by
  induction n using Nat.strongRecOn with
  | ind n ih =>
    rw [Nat.toDigits_eq_if hb]
    split
    next h => simp [hread n h]
    next h =>
      have hlt : n / b < n := Nat.div_lt_self (by omega) hb
      have hmod : read (n % b).digitChar = some (n % b) := hread _ (Nat.mod_lt _ (by omega))
      simp [List.foldlM_append, ih _ hlt, hmod, Nat.div_add_mod']

theorem exists_digitChar_of_mem_toDigits {b : Nat} (hb : 1 < b) {n : Nat} {c : Char}
    (h : c ∈ Nat.toDigits b n) : ∃ d < b, c = d.digitChar := by
  induction n using Nat.strongRecOn with
  | ind n ih =>
    rw [Nat.toDigits_eq_if hb] at h
    split at h
    next hn => exact ⟨n, hn, List.mem_singleton.1 h⟩
    next hn =>
      have hlt : n / b < n := Nat.div_lt_self (by omega) hb
      rcases List.mem_append.1 h with h | h
      · exact ih _ hlt h
      · exact ⟨n % b, Nat.mod_lt _ (by omega), List.mem_singleton.1 h⟩

/-- Zeros in front add nothing. -/
theorem foldlM_zeros {b : Nat} {read : Char → Option Nat} (hread : read '0' = some 0) (m : Nat) :
    (List.replicate m '0').foldlM (fun k c => (read c).map (k * b + ·)) 0 = some 0 := by
  induction m with
  | zero => rfl
  | succ m ih => simpa [List.replicate_succ, hread] using ih

theorem valueOf_eq_ofDigitChars (ds : List Char) : valueOf ds = Nat.ofDigitChars 10 ds 0 := by
  simp [valueOf, Nat.ofDigitChars_eq_foldl, Nat.mul_comm]

theorem valueOf_toDigits (n : Nat) : valueOf (Nat.toDigits 10 n) = n := by
  rw [valueOf_eq_ofDigitChars, Nat.ofDigitChars_ten_toDigits]

theorem valueOf_zeros_append (m : Nat) (ds : List Char) :
    valueOf (List.replicate m '0' ++ ds) = valueOf ds := by
  induction m with
  | zero => rfl
  | succ m ih => simpa [valueOf, List.replicate_succ] using ih

theorem valueOf_append_zeros (ds : List Char) (m : Nat) :
    valueOf (ds ++ List.replicate m '0') = valueOf ds * 10 ^ m := by
  induction m with
  | zero => simp
  | succ m ih =>
    rw [List.replicate_succ', ← List.append_assoc, Nat.pow_succ, ← Nat.mul_assoc, ← ih]
    simp [valueOf]

/-! ## Padded numbers -/

variable {width n : Nat}

@[simp] theorem valueOf_padded (width n : Nat) : valueOf (padded width n).toList = n := by
  simp [padded, valueOf_zeros_append, valueOf_toDigits]

theorem isDigit_of_mem_padded {c : Char} (h : c ∈ (padded width n).toList) : c.isDigit = true := by
  simp only [padded, String.toList_ofList, List.mem_append, List.mem_replicate] at h
  rcases h with ⟨-, rfl⟩ | h
  · decide
  · exact Nat.isDigit_of_mem_toDigits (by decide) (by decide) h

theorem padded_ne_nil (width n : Nat) : (padded width n).toList ≠ [] := by
  simp [padded, Nat.toDigits_ne_nil]

/-- A number that fits its width is padded to exactly that width. -/
theorem length_padded (hw : 0 < width) (hn : n < 10 ^ width) :
    (padded width n).toList.length = width := by
  have h := Nat.toDigits_length 10 n width hw hn
  simp [padded]
  omega

/-! ## Reading digits in front of more text -/

/-- Reading stops behind the digits when the limit is reached or no digit follows. -/
theorem natural?_append {limit : Nat} {ds rest : List Char} (hne : ds ≠ [])
    (hds : ∀ c ∈ ds, c.isDigit = true) (hlimit : ds.length ≤ limit)
    (hrest : ds.length = limit ∨ ∀ c ∈ rest.head?, c.isDigit = false) :
    natural? limit (ds ++ rest) = some (valueOf ds, rest) := by
  have hall : ((ds ++ rest).take limit).takeWhile Char.isDigit = ds := by
    rw [List.take_append, List.take_of_length_le hlimit, List.takeWhile_append_of_pos hds]
    rcases hrest with h | h
    · simp [h]
    · cases rest with
      | nil => simp
      | cons c rest =>
        have hc : c.isDigit = false := h c rfl
        cases limit - ds.length with
        | zero => simp
        | succ k => simp [hc]
  simp [natural?, hall, hne]

theorem natural?_padded (hw : 0 < width) (hn : n < 10 ^ width) (rest : List Char) :
    natural? width ((padded width n).toList ++ rest) = some (n, rest) := by
  have h := length_padded hw hn
  rw [natural?_append (padded_ne_nil width n) (fun _ => isDigit_of_mem_padded) h.le (.inl h),
    valueOf_padded]

end Text

end ClusterLink
