import ClusterLink.Proofs.Text.Uid
import ClusterLink.Text.Outline

/-! What the text of an outline tells. Each character of quoted text is read back from its spelling
(`Text.unescape?_escape`), and no spelling begins with the quote that ends the text, so a quoted
text is known from any text that it begins (`Text.quoted_append_inj`). Outlines that are the same
but for quoted texts are therefore rendered alike only if they are equal (`Alike.render_eq_iff`). -/

namespace ClusterLink

namespace Text

/-! ## Quoted text -/

/-- Reads the number of a character, up to the brace that closes it. -/
def readCode? (cs : List Char) : Option (Char × List Char) :=
  ((cs.takeWhile (· != '\x7d')).foldlM (fun n c => (Json.hexDigit? c).map (n * 16 + ·)) 0).map
    fun n => (Char.ofNat n, (cs.dropWhile (· != '\x7d')).tail)

/-- Reads what a backslash begins. -/
def readEscaped? : List Char → Option (Char × List Char)
  | [] => none
  | '0' :: rest => some ('\x00', rest)
  | 't' :: rest => some ('\t', rest)
  | 'n' :: rest => some ('\n', rest)
  | 'r' :: rest => some ('\r', rest)
  | 'u' :: rest => readCode? rest.tail
  | c :: rest => some (c, rest)

/-- Reads the spelling of one character in quoted text. -/
def unescape? : List Char → Option (Char × List Char)
  | [] => none
  | c :: rest => if c = '\\' then readEscaped? rest else some (c, rest)

theorem readCode?_toDigits (c : Char) (rest : List Char) :
    readCode? (Nat.toDigits 16 c.toNat ++ '\x7d' :: rest) = some (c, rest) := by
  have hbrace : ∀ d < 16, (d.digitChar != '\x7d') = true := by decide
  have hdigits : ∀ d ∈ Nat.toDigits 16 c.toNat, (d != '\x7d') = true := by
    intro d hd
    obtain ⟨k, hk, rfl⟩ := exists_digitChar_of_mem_toDigits (by decide) hd
    exact hbrace k hk
  have hvalue := foldlM_toDigits (b := 16) (by decide) Uid.hexDigit?_digitChar c.toNat
  simp [readCode?, List.takeWhile_append_of_pos hdigits, List.dropWhile_append_of_pos hdigits,
    hvalue]

/-- A character is read back from its spelling, whatever follows. -/
theorem unescape?_escape (c : Char) (rest : List Char) :
    unescape? (escape c ++ rest) = some (c, rest) := by
  unfold escape
  split
  next h => subst h; rfl
  split
  next h => subst h; rfl
  split
  next h => subst h; rfl
  split
  next h => subst h; rfl
  split
  next h => subst h; rfl
  split
  next h => subst h; rfl
  split
  next => simp [unescape?, readEscaped?, readCode?_toDigits]
  next hslash _ => simp [unescape?, hslash]

theorem escape_append_inj {c d : Char} {x y : List Char} (h : escape c ++ x = escape d ++ y) :
    c = d ∧ x = y := by
  have hread := congrArg unescape? h
  rw [unescape?_escape, unescape?_escape] at hread
  exact Prod.mk.inj (Option.some.inj hread)

/-- No spelling begins with the quote that ends a text. -/
theorem quote_cons_ne_escape_append (c : Char) (x y : List Char) :
    '"' :: x ≠ escape c ++ y := by
  intro h
  have hread := congrArg unescape? h
  rw [unescape?_escape] at hread
  obtain ⟨rfl, rfl⟩ : '"' = c ∧ x = y := by simpa [unescape?] using hread
  simp [escape] at h

/-- Of two texts in quotes with more behind them, the quotes end at the same place. -/
theorem flatMap_escape_append_inj {a b x y : List Char}
    (h : a.flatMap escape ++ '"' :: x = b.flatMap escape ++ '"' :: y) : a = b ∧ x = y := by
  induction a generalizing b with
  | nil =>
    cases b with
    | nil => exact ⟨rfl, (List.cons.inj h).2⟩
    | cons d b =>
      rw [List.flatMap_cons, List.append_assoc] at h
      exact absurd h (quote_cons_ne_escape_append d _ _)
  | cons c a ih =>
    cases b with
    | nil =>
      rw [List.flatMap_cons, List.append_assoc] at h
      exact absurd h.symm (quote_cons_ne_escape_append c _ _)
    | cons d b =>
      rw [List.flatMap_cons, List.flatMap_cons, List.append_assoc, List.append_assoc] at h
      obtain ⟨rfl, hrest⟩ := escape_append_inj h
      obtain ⟨rfl, rfl⟩ := ih hrest
      exact ⟨rfl, rfl⟩

theorem quoted_append_inj {s t x y : String} (h : quoted s ++ x = quoted t ++ y) :
    s = t ∧ x = y := by
  have hlists : s.toList.flatMap escape ++ '"' :: x.toList =
      t.toList.flatMap escape ++ '"' :: y.toList := by
    simpa [quoted] using congrArg String.toList h
  obtain ⟨hst, hxy⟩ := flatMap_escape_append_inj hlists
  exact ⟨String.toList_inj.1 hst, String.toList_inj.1 hxy⟩

end Text

namespace Outline

/-! ## Outlines of one shape -/

mutual

/-- Two outlines that are the same but for quoted texts in them. Of parts that are equal it does not
matter how they are built. -/
inductive Alike : Outline → Outline → Prop
  | same (o : Outline) : Alike o o
  | text (s t : String) : Alike (.text s) (.text t)
  | record {name : String} {fields fields' : List (String × Outline)} :
    AlikeFields fields fields' → Alike (.record name fields) (.record name fields')
  | list {items items' : List Outline} :
    AlikeItems items items' → Alike (.list items) (.list items')
  | map {entries entries' : List (Outline × Outline)} :
    AlikeEntries entries entries' → Alike (.map entries) (.map entries')
  | present {value value' : Outline} : Alike value value' → Alike (.present value) (.present value')

/-- Fields of the same names with outlines that are alike. -/
inductive AlikeFields : List (String × Outline) → List (String × Outline) → Prop
  | nil : AlikeFields [] []
  | cons {name : String} {value value' : Outline} {fields fields' : List (String × Outline)} :
    Alike value value' → AlikeFields fields fields' →
      AlikeFields ((name, value) :: fields) ((name, value') :: fields')

/-- As many items, alike one by one. -/
inductive AlikeItems : List Outline → List Outline → Prop
  | nil : AlikeItems [] []
  | cons {item item' : Outline} {items items' : List Outline} :
    Alike item item' → AlikeItems items items' → AlikeItems (item :: items) (item' :: items')

/-- As many entries, alike one by one. -/
inductive AlikeEntries : List (Outline × Outline) → List (Outline × Outline) → Prop
  | nil : AlikeEntries [] []
  | cons {key key' value value' : Outline} {entries entries' : List (Outline × Outline)} :
    Alike key key' → Alike value value' → AlikeEntries entries entries' →
      AlikeEntries ((key, value) :: entries) ((key', value') :: entries')

end

/-! ## Parts of a rendered outline -/

/-- The elements after the first one, each behind a comma. -/
def more (shape : List α → String) : List α → String
  | [] => ""
  | l => ", " ++ shape l

theorem renderFields_cons (field : String × Outline) (fields : List (String × Outline)) :
    renderFields (field :: fields)
      = field.1 ++ ": " ++ render field.2 ++ more renderFields fields := by
  cases fields <;> simp [renderFields, more, String.append_assoc]

theorem renderItems_cons (item : Outline) (items : List Outline) :
    renderItems (item :: items) = render item ++ more renderItems items := by
  cases items <;> simp [renderItems, more, String.append_assoc]

theorem renderEntries_cons (entry : Outline × Outline) (entries : List (Outline × Outline)) :
    renderEntries (entry :: entries)
      = render entry.1 ++ ": " ++ render entry.2 ++ more renderEntries entries := by
  cases entries <;> simp [renderEntries, more, String.append_assoc]

variable {x y : String}

/-- What is told by a text in front of any other is told by it between two marks. -/
theorem enclosed_append_inj {p : Prop} {s t opening closing : String}
    (hst : ∀ {x y : String}, s ++ x = t ++ y → p ∧ x = y)
    (h : opening ++ s ++ closing ++ x = opening ++ t ++ closing ++ y) : p ∧ x = y := by
  simp only [String.append_assoc, String.append_right_inj] at h
  obtain ⟨hp, hclosing⟩ := hst h
  exact ⟨hp, (String.append_right_inj _).1 hclosing⟩

/-- More elements are told apart as soon as all are, if there are any on both sides or on none. -/
theorem more_append_inj {shape : List α → String} {l l' : List α}
    (hnil : l = [] ↔ l' = [])
    (hshape : ∀ {x y : String}, shape l ++ x = shape l' ++ y → l = l' ∧ x = y)
    (h : more shape l ++ x = more shape l' ++ y) : l = l' ∧ x = y := by
  cases l with
  | nil =>
    obtain rfl := hnil.1 rfl
    exact ⟨rfl, (String.append_right_inj _).1 h⟩
  | cons a l =>
    cases l' with
    | nil => cases hnil.2 rfl
    | cons a' l' =>
      simp only [more, String.append_assoc, String.append_right_inj] at h
      exact hshape h

/-! ## Outlines that are alike are told apart by their texts -/

mutual

theorem Alike.render_inj {o o' : Outline} :
    Alike o o' → ∀ {x y : String}, render o ++ x = render o' ++ y → o = o' ∧ x = y
  | .same o, _, _, h => ⟨rfl, (String.append_right_inj _).1 h⟩
  | .text s t, _, _, h => by
    obtain ⟨rfl, hxy⟩ := Text.quoted_append_inj h
    exact ⟨rfl, hxy⟩
  -- a record without fields is rendered without braces
  | .record .nil, _, _, h => ⟨rfl, (String.append_right_inj _).1 h⟩
  | .record (.cons hvalue hfields), _, _, h =>
    (enclosed_append_inj (AlikeFields.cons hvalue hfields).render_inj h).imp_left (congrArg _)
  | .list hitems, _, _, h => (enclosed_append_inj hitems.render_inj h).imp_left (congrArg _)
  | .map hentries, _, _, h => (enclosed_append_inj hentries.render_inj h).imp_left (congrArg _)
  | .present hvalue, _, _, h => (enclosed_append_inj hvalue.render_inj h).imp_left (congrArg _)

theorem AlikeFields.render_inj {fields fields' : List (String × Outline)} :
    AlikeFields fields fields' → ∀ {x y : String},
      renderFields fields ++ x = renderFields fields' ++ y → fields = fields' ∧ x = y
  | .nil, _, _, h => ⟨rfl, (String.append_right_inj _).1 h⟩
  | .cons hvalue hfields, _, _, h => by
    simp only [renderFields_cons, String.append_assoc, String.append_right_inj] at h
    obtain ⟨rfl, hmore⟩ := hvalue.render_inj h
    obtain ⟨rfl, hxy⟩ := more_append_inj (by cases hfields <;> simp) hfields.render_inj hmore
    exact ⟨rfl, hxy⟩

theorem AlikeItems.render_inj {items items' : List Outline} :
    AlikeItems items items' → ∀ {x y : String},
      renderItems items ++ x = renderItems items' ++ y → items = items' ∧ x = y
  | .nil, _, _, h => ⟨rfl, (String.append_right_inj _).1 h⟩
  | .cons hitem hitems, _, _, h => by
    simp only [renderItems_cons, String.append_assoc] at h
    obtain ⟨rfl, hmore⟩ := hitem.render_inj h
    obtain ⟨rfl, hxy⟩ := more_append_inj (by cases hitems <;> simp) hitems.render_inj hmore
    exact ⟨rfl, hxy⟩

theorem AlikeEntries.render_inj {entries entries' : List (Outline × Outline)} :
    AlikeEntries entries entries' → ∀ {x y : String},
      renderEntries entries ++ x = renderEntries entries' ++ y → entries = entries' ∧ x = y
  | .nil, _, _, h => ⟨rfl, (String.append_right_inj _).1 h⟩
  | .cons hkey hvalue hentries, _, _, h => by
    simp only [renderEntries_cons, String.append_assoc] at h
    obtain ⟨rfl, hcolon⟩ := hkey.render_inj h
    obtain ⟨rfl, hmore⟩ := hvalue.render_inj ((String.append_right_inj _).1 hcolon)
    obtain ⟨rfl, hxy⟩ := more_append_inj (by cases hentries <;> simp) hentries.render_inj hmore
    exact ⟨rfl, hxy⟩

end

theorem Alike.render_eq_iff {o o' : Outline} (h : Alike o o') : o.render = o'.render ↔ o = o' :=
  ⟨fun he => (h.render_inj (congrArg (· ++ "") he)).1, congrArg render⟩

/-! ## Outlines of lists and of texts under names -/

/-- Items are alike one by one if the same is `shown` of them and it fixes their outlines but for
quoted texts. -/
theorem alikeItems_map {shown : α → β} {shape : α → Outline}
    (hshape : ∀ a b, shown a = shown b → Alike (shape a) (shape b)) {l l' : List α}
    (h : l.map shown = l'.map shown) : AlikeItems (l.map shape) (l'.map shape) := by
  induction l generalizing l' with
  | nil =>
    obtain rfl := List.map_eq_nil_iff.1 h.symm
    exact .nil
  | cons a l ih =>
    cases l' with
    | nil => cases h
    | cons a' l' =>
      obtain ⟨hfirst, hrest⟩ := List.cons.inj h
      exact .cons (hshape a a' hfirst) (ih hrest)

theorem text_inj {s t : String} (h : text s = text t) : s = t :=
  (Text.quoted_append_inj (congrArg (· ++ "") (word.inj h))).1

/-- The entries of an outline that shows texts under names. -/
def texts (entries : List (String × String)) : List (Outline × Outline) :=
  entries.map fun e => (.text e.1, .text e.2)

theorem alikeEntries_of_names {l l' : List (String × String)}
    (h : l.map Prod.fst = l'.map Prod.fst) : AlikeEntries (texts l) (texts l') := by
  induction l generalizing l' with
  | nil =>
    obtain rfl := List.map_eq_nil_iff.1 h.symm
    exact .nil
  | cons e l ih =>
    cases l' with
    | nil => cases h
    | cons e' l' =>
      obtain ⟨hname, hrest⟩ := List.cons.inj h
      exact .cons (hname ▸ .same _) (.text _ _) (ih hrest)

theorem texts_inj {l l' : List (String × String)} (h : texts l = texts l') : l = l' := by
  refine (List.map_inj_right fun e e' he => ?_).1 h
  obtain ⟨hname, htext⟩ := Prod.mk.inj he
  exact Prod.ext (text_inj hname) (text_inj htext)

end Outline

end ClusterLink
