import ClusterLink.Json.Fields
import ClusterLink.Proofs.Json.Rendered
import ClusterLink.Proofs.Text.Digits

/-! Forms that are read back: texts, numbers, lists, maps and records. `Restores encode read` is
what each of them is shown to have, and what the forms of larger things are put together from. A
record is read back field by field, a field that was left out by the default of its reader. -/

namespace ClusterLink.Json

/-! ## Legible values -/

theorem legibleItems_iff {items : List Json} :
    LegibleItems items ↔ ∀ item ∈ items, Legible item := by
  induction items with
  | nil => simp [LegibleItems]
  | cons item items ih => simp [LegibleItems, ih]

theorem legibleMembers_iff {members : List (Option String × Json)} :
    LegibleMembers members ↔ ∀ m ∈ members, Legible m.2 := by
  induction members with
  | nil => simp [LegibleMembers]
  | cons m members ih => simp [LegibleMembers, ih]

@[simp] theorem legible_str (s : String) : Legible (str s) := trivial

@[simp] theorem legible_array {items : List Json} :
    Legible (.array items) ↔ ∀ item ∈ items, Legible item := by
  rw [Legible, legibleItems_iff]

@[simp] theorem legible_record {members : List (String × Json)} :
    Legible (record members) ↔ ∀ m ∈ members, Legible m.2 := by
  rw [record, Legible, legibleMembers_iff, List.forall_mem_map]

theorem digit?_digitChar : ∀ d < 10, digit? d.digitChar = some d := by decide

theorem NumberPart.after?_append (part : NumberPart) (cs ds : List Char) :
    part.after? (cs ++ ds) = (part.after? cs).bind fun part' => part'.after? ds := by
  simp [NumberPart.after?, List.foldlM_append]

/-- The digits of a number are spelled without a zero in front. -/
theorem after?_toDigits {n : Nat} (h : 0 < n) :
    NumberPart.sign.after? (Nat.toDigits 10 n) = some .whole := by
  induction n using Nat.strongRecOn with
  | ind n ih =>
    rw [Nat.toDigits_eq_if (by decide)]
    split
    next hn =>
      have hzero : n.digitChar ≠ '0' := fun e => by simp at e; omega
      simp [NumberPart.after?, NumberPart.next?, hzero, digit?_digitChar n hn]
    next hn =>
      have hdigit : digit? (n % 10).digitChar = some (n % 10) :=
        digit?_digitChar _ (Nat.mod_lt _ (by decide))
      rw [NumberPart.after?_append, ih (n / 10) (by omega) (by omega)]
      simp [NumberPart.after?, NumberPart.next?, hdigit]

@[simp] theorem legible_nat (n : Nat) : Legible (nat n) := by
  rw [nat, Legible, IsNumber, Nat.toString_eq_ofList_toDigits, String.toList_ofList]
  rcases Nat.eq_zero_or_pos n with rfl | h
  · exact ⟨.zero, rfl, .inl rfl⟩
  · exact ⟨.whole, rfl, .inl (after?_toDigits h)⟩

/-! ## Restoring forms -/

/-- What each element is taken back from, a list of them is. -/
theorem mapM_map_of_inverse {α β : Type} {f : α → β} {g : β → Option α}
    (h : ∀ a, g (f a) = some a) (l : List α) : (l.map f).mapM g = some l := by
  have hg : g ∘ f = fun a => pure a := funext h
  rw [List.mapM_map, hg, List.mapM_pure, List.map_id']
  rfl

/-- Every form that `encode` writes can be read, and `read` takes it back. -/
structure Restores {α : Type} (encode : α → Json) (read : Json → Option α) : Prop where
  legible : ∀ a, Legible (encode a)
  read_encode : ∀ a, read (encode a) = some a

namespace Restores

variable {α : Type} {encode : α → Json} {read : Json → Option α}

/-- The text of a form is read back. -/
theorem read?_render (h : Restores encode read) (a : α) :
    (Json.read? (render (encode a))).bind read = some a := by
  rw [Json.read?_render (h.legible a), Option.bind_some, h.read_encode]

theorem str : Restores Json.str str? := ⟨legible_str, fun _ => rfl⟩

/-- A thing that has a text is restored with it. -/
theorem ofText {text : α → String} {read : String → Option α} (h : ∀ a, read (text a) = some a) :
    Restores (fun a => .str (text a)) fun v => v.str?.bind read :=
  ⟨fun a => legible_str (text a), h⟩

end Restores

theorem nat?_nat (n : Nat) : (nat n).nat? = some n := by
  have hdigits := Text.foldlM_toDigits (b := 10) (by decide) digit?_digitChar n
  have hempty : (toString n).isEmpty = false := by
    simp
  simpa [nat, nat?, hempty, digits?, Nat.toString_eq_ofList_toDigits] using hdigits

theorem natBelow?_nat {bound n : Nat} (h : n < bound) : natBelow? bound (nat n) = some n := by
  simp [natBelow?, nat?_nat, h]

namespace Restores

theorem uint64 : Restores (fun n : UInt64 => .nat n.toNat) uint64? :=
  ⟨fun _ => legible_nat _, fun n => by simp [uint64?, natBelow?_nat n.toNat_lt_size]⟩

theorem uint32 : Restores (fun n : UInt32 => .nat n.toNat) uint32? :=
  ⟨fun _ => legible_nat _, fun n => by simp [uint32?, natBelow?_nat n.toNat_lt_size]⟩

theorem uint8 : Restores (fun n : UInt8 => .nat n.toNat) uint8? :=
  ⟨fun _ => legible_nat _, fun n => by simp [uint8?, natBelow?_nat n.toNat_lt_size]⟩

variable {α : Type} {encode : α → Json} {read : Json → Option α}

theorem list (h : Restores encode read) :
    Restores (fun l : List α => .array (l.map encode)) (list? read) where
  legible l := by simpa using fun a _ => h.legible a
  read_encode l := mapM_map_of_inverse h.read_encode l

theorem dict (h : Restores encode read) : Restores (ofDict encode) (dict? read) where
  legible d := by
    rw [ofDict, legible_record, List.forall_mem_map]
    exact fun e _ => h.legible e.2
  read_encode d := by
    have hentries := mapM_map_of_inverse
      (f := fun e : String × α => (some e.1, encode e.2))
      (g := fun m => do return (← m.1, ← read m.2)) (fun e => by simp [h.read_encode]) d.entries
    simp only [ofDict, record, List.map_map, dict?, Function.comp_def, hentries]
    simp [Dict.ofList_entries]

end Restores

/-! ## Records -/

variable {α : Type} {encode : α → Json} {read : Json → Option α}

/-- The fields of a record whose members stand in order, some of them left out. -/
theorem fields?_record {names : List String} {members : List (String × Json)}
    (h : (members.map Prod.fst).Sublist names) (hnames : names.Nodup) :
    (record members).fields? names = some members := by
  have hnamed := mapM_map_of_inverse (f := fun m : String × Json => (some m.1, m.2))
    (g := fun m => m.1.map (·, m.2)) (fun _ => rfl) members
  have hknown : members.filter (fun m => names.contains m.1) = members :=
    List.filter_eq_self.2 fun m hm => by
      simpa using h.subset (List.mem_map_of_mem hm)
  simp only [record, fields?, hnamed, Option.bind_eq_bind, Option.bind_some, hknown,
    h.nodup hnames, ↓reduceIte]

theorem sublist_member?_names (name : String) (encode : α → Json) (a : Option α) :
    ((member? name encode a).map Prod.fst).Sublist [name] := by
  cases a with
  | none => exact List.nil_sublist _
  | some a => exact .refl _

@[simp] theorem lookup_member? (name key : String) (encode : α → Json) (a : Option α) :
    (member? name encode a).lookup key = if key == name then a.map encode else none := by
  cases a with
  | none => simp [member?]
  | some a => simp [member?, List.lookup_cons]; split <;> simp_all

theorem forall_mem_member? {name : String} {a : Option α} {p : String × Json → Prop} :
    (∀ m ∈ member? name encode a, p m) ↔ ∀ x ∈ a, p (name, encode x) := by
  cases a <;> simp [member?]

variable {fields : List (String × Json)} {name : String}

theorem Restores.required (h : Restores encode read) {a : α}
    (hfield : fields.lookup name = some (encode a)) :
    Json.required fields name read = some a := by
  rw [Json.required, hfield, Option.bind_some, h.read_encode]

/-- A field that is written in any case. -/
theorem Restores.withDefault (h : Restores encode read) {a default : α}
    (hfield : fields.lookup name = some (encode a)) :
    Json.withDefault fields name default read = some a := by
  simp only [Json.withDefault, hfield, h.read_encode]

/-- A field that is written unless it has its default. -/
theorem Restores.withDefault_unless (h : Restores encode read) {a default : α} {c : Prop}
    [Decidable c] (hfield : fields.lookup name = (if c then none else some a).map encode)
    (hdefault : c → a = default) :
    Json.withDefault fields name default read = some a := by
  split at hfield
  next hc => simp only [Json.withDefault, hfield, Option.map_none, hdefault hc]
  next => exact h.withDefault hfield

/-- A field that is written when there is something. -/
theorem Restores.optional (h : Restores encode read) (hnull : ∀ a, encode a ≠ .null)
    {a : Option α} (hfield : fields.lookup name = a.map encode) :
    Json.optional fields name read = some a := by
  cases a with
  | none => simp only [Json.optional, hfield, Option.map_none]
  | some a =>
    simp only [Json.optional, hfield, Option.map_some]
    split
    next heq => cases heq
    next heq => exact absurd (Option.some.inj heq) (hnull a)
    next v _ heq =>
      obtain rfl := Option.some.inj heq
      rw [h.read_encode, Option.map_some]

end ClusterLink.Json
