import ClusterLink.Json.Reader
import ClusterLink.Json.Writer

/-! What is written is read back: `read?_render` says it of every legible value, one whose numbers
are spelled as numbers. The reader is followed over the text a value is written as, part by part,
with anything open around it. -/

namespace ClusterLink.Json

/-- Where the reader stands after more characters of a number. -/
def NumberPart.after? (part : NumberPart) (cs : List Char) : Option NumberPart :=
  cs.foldlM NumberPart.next? part

/-- Whether a literal spells a number. -/
def IsNumber (literal : String) : Prop :=
  ∃ part : NumberPart, part.complete = true ∧
    (NumberPart.sign.after? literal.toList = some part ∨
      ∃ cs, literal.toList = '-' :: cs ∧ NumberPart.sign.after? cs = some part)

mutual

/-- Whether all numbers in a value are spelled as numbers. -/
def Legible : Json → Prop
  | .number literal => IsNumber literal
  | .array items => LegibleItems items
  | .object members => LegibleMembers members
  | .null | .bool _ | .text _ => True

def LegibleItems : List Json → Prop
  | [] => True
  | item :: items => Legible item ∧ LegibleItems items

def LegibleMembers : List (Option String × Json) → Prop
  | [] => True
  | (_, value) :: members => Legible value ∧ LegibleMembers members

end

namespace Reader

theorem feed_cons (r : Reader) (c : Char) (cs : List Char) :
    r.feed (c :: cs) = (r.step c).bind fun r' => r'.feed cs := by
  simp only [feed]
  cases r.step c <;> rfl

theorem feed_append (r : Reader) (cs ds : List Char) :
    r.feed (cs ++ ds) = (r.feed cs).bind fun r' => r'.feed ds := by
  induction cs generalizing r with
  | nil => rfl
  | cons c cs ih =>
    rw [List.cons_append, feed_cons, feed_cons]
    cases r.step c with
    | none => rfl
    | some r' => exact ih r'

/-- Reading one stretch and then another is reading both. -/
theorem feed_trans {r r' : Reader} {cs ds : List Char} {x : Option Reader}
    (h : r.feed cs = some r') (h' : r'.feed ds = x) : r.feed (cs ++ ds) = x := by
  rw [feed_append, h, Option.bind_some, h']

theorem feed_step {s r : Reader} {c : Char} {cs : List Char} {x : Option Reader}
    (h : s.step c = some r) (h' : r.feed cs = x) : s.feed (c :: cs) = x := by
  rw [feed_cons, h, Option.bind_some, h']

/-! ## Texts -/

theorem hexDigit?_hexDigit : ∀ d < 16, hexDigit? (hexDigit d) = some d := by decide

/-- A character is read back from its spelling. -/
theorem feed_escape (frames : List Frame) (isKey : Bool) (chars : List Char) (c : Char) :
    feed ⟨frames, .text isKey { chars }⟩ (escape c)
      = some ⟨frames, .text isKey { chars := c :: chars }⟩ := by
  unfold escape
  split
  next h => subst h; rfl
  split
  next h => subst h; rfl
  split
  next h => subst h; rfl
  split
  next h => subst h; rfl
  split
  next h => subst h; rfl
  split
  next h => subst h; rfl
  split
  next h => subst h; rfl
  split
  next h =>
    have hhigh := hexDigit?_hexDigit (c.toNat / 16) (by omega)
    have hlow := hexDigit?_hexDigit (c.toNat % 16) (by omega)
    have hzero : hexDigit? '0' = some 0 := rfl
    have hcode : c.toNat / 16 * 16 + c.toNat % 16 = c.toNat := Nat.div_add_mod' ..
    have hlone : ¬ (0xD800 ≤ c.toNat ∧ c.toNat < 0xDC00) ∧
        ¬ (0xDC00 ≤ c.toNat ∧ c.toNat < 0xE000) := by omega
    simp [feed, step, stepText, hzero, hhigh, hlow, hcode, Content.pushCode, hlone]
  next hquote hslash _ _ _ _ _ hlow =>
    simp [feed, step, stepText, hquote, hslash, hlow, Content.push]

theorem feed_escapes (frames : List Frame) (isKey : Bool) (chars cs : List Char) :
    feed ⟨frames, .text isKey { chars }⟩ (cs.flatMap escape)
      = some ⟨frames, .text isKey { chars := cs.reverse ++ chars }⟩ := by
  induction cs generalizing chars with
  | nil => rfl
  | cons c cs ih =>
    rw [List.flatMap_cons]
    refine feed_trans (feed_escape frames isKey chars c) ?_
    rw [ih, List.reverse_cons, List.append_assoc, List.singleton_append]

/-- The rest of a text after its opening quote. -/
theorem feed_content (frames : List Frame) (isKey : Bool) (content : Option String) :
    feed ⟨frames, .text isKey {}⟩ (writeContent content).tail = endText frames isKey content := by
  have hclose (t : Content) (ht : t.escape = .plain) :
      feed ⟨frames, .text isKey t⟩ ['"'] = endText frames isKey t.result := by
    simp only [feed, step, stepText, ht, ↓reduceIte]
    cases endText frames isKey t.result <;> rfl
  cases content with
  | none =>
    have hhalf : feed ⟨frames, .text isKey {}⟩ ['\\', 'u', 'd', '8', '0', '0']
        = some ⟨frames, .text isKey { high := some 0xD800 }⟩ := rfl
    exact feed_trans hhalf (hclose _ rfl)
  | some content =>
    refine feed_trans (feed_escapes frames isKey [] content.toList) ?_
    rw [hclose _ rfl]
    simp [Content.result]

theorem feed_key (frames : List Frame) (done : List (Option String × Json)) (mayClose : Bool)
    (key : Option String) :
    feed ⟨.object done :: frames, .key mayClose⟩ (writeContent key)
      = some ⟨.member done key :: frames, .colon⟩ := by
  obtain ⟨cs, h⟩ : ∃ cs, writeContent key = '"' :: cs := by cases key <;> exact ⟨_, rfl⟩
  have hcs := feed_content (.object done :: frames) true key
  rw [h] at hcs ⊢
  exact feed_step (r := ⟨.object done :: frames, .text true {}⟩) rfl hcs

/-! ## Numbers -/

theorem feed_number (frames : List Frame) {part part' : NumberPart} {cs : List Char}
    (h : part.after? cs = some part') (chars : List Char) :
    feed ⟨frames, .number part chars⟩ cs = some ⟨frames, .number part' (cs.reverse ++ chars)⟩ := by
  induction cs generalizing part chars with
  | nil =>
    obtain rfl : part = part' := by simpa [NumberPart.after?] using h
    rfl
  | cons c cs ih =>
    obtain ⟨next, hnext, hrest⟩ :
        ∃ next, part.next? c = some next ∧ next.after? cs = some part' := by
      simpa [NumberPart.after?, Option.bind_eq_some_iff] using h
    refine feed_step (r := ⟨frames, .number next (c :: chars)⟩) (by simp [step, hnext]) ?_
    rw [ih hrest, List.reverse_cons, List.append_assoc, List.singleton_append]

/-- No digit is one of the characters at which a value of another kind begins. -/
theorem stepValue_digit (frames : List Frame) (mayClose : Bool) {c : Char} {part : NumberPart}
    (h : NumberPart.sign.next? c = some part) :
    stepValue frames mayClose c = some ⟨frames, .number part [c]⟩ := by
  have hdigit : '0' ≤ c ∧ c ≤ '9' := by
    simp only [NumberPart.next?] at h
    split at h
    next hc => subst hc; decide
    next =>
      by_cases hc : '0' ≤ c ∧ c ≤ '9'
      · exact hc
      · simp [digit?, hc] at h
  have hne {d : Char} (hd : ¬ ('0' ≤ d ∧ d ≤ '9')) : c ≠ d := fun e => hd (e ▸ hdigit)
  have hblank : isBlank c = false := by
    simp [isBlank, hne (d := ' ') (by decide), hne (d := '\t') (by decide),
      hne (d := '\n') (by decide), hne (d := '\r') (by decide)]
  simp [stepValue, hblank, h, hne (d := '"') (by decide), hne (d := '[') (by decide),
    hne (d := '\x7b') (by decide), hne (d := ']') (by decide), hne (d := 't') (by decide),
    hne (d := 'f') (by decide), hne (d := 'n') (by decide), hne (d := '-') (by decide)]

/-- A number stays open behind its literal, at a place where it is whole. -/
theorem feed_literal (frames : List Frame) (mayClose : Bool) {literal : String}
    (h : IsNumber literal) :
    ∃ part : NumberPart, part.complete = true ∧
      feed ⟨frames, .value mayClose⟩ literal.toList
        = some ⟨frames, .number part literal.toList.reverse⟩ := by
  obtain ⟨part, hpart, h | ⟨cs, hcs, h⟩⟩ := h
  · refine ⟨part, hpart, ?_⟩
    cases hl : literal.toList with
    | nil =>
      rw [hl] at h
      obtain rfl : NumberPart.sign = part := by simpa [NumberPart.after?] using h
      simp [NumberPart.complete] at hpart
    | cons c cs =>
      obtain ⟨next, hnext, hrest⟩ : ∃ next, NumberPart.sign.next? c = some next ∧
          next.after? cs = some part := by
        simpa [hl, NumberPart.after?, Option.bind_eq_some_iff] using h
      refine feed_step (stepValue_digit frames mayClose hnext) ?_
      rw [feed_number frames hrest, List.reverse_cons]
  · refine ⟨part, hpart, ?_⟩
    rw [hcs]
    refine feed_step (r := ⟨frames, .number .sign ['-']⟩) rfl ?_
    rw [feed_number frames h, List.reverse_cons]

/-! ## Values -/

/-- A whole value has been read: it is delivered, or it is a number that could still go on. -/
inductive Holds (frames : List Frame) : Json → Reader → Prop
  | delivered (v : Json) : Holds frames v (deliver frames v)
  | number {part : NumberPart} {literal : String} (h : part.complete = true) :
      Holds frames (.number literal) ⟨frames, .number part literal.toList.reverse⟩

namespace Holds

variable {frames : List Frame} {v : Json} {r : Reader}

/-- At a comma or a closing bracket it makes no difference whether a number was delivered. -/
theorem step (h : Holds frames v r) {c : Char} (hc : c ∈ [',', ']', '\x7d']) :
    r.step c = (deliver frames v).step c := by
  cases h with
  | delivered => rfl
  | @number part literal h =>
    have hnext : part.next? c = none := by
      simp only [List.mem_cons, List.not_mem_nil, or_false] at hc
      rcases hc with rfl | rfl | rfl <;> cases part <;> rfl
    have hafter (v : Json) : stepAfter (deliver frames v) c = (deliver frames v).step c := by
      cases frames with
      | nil => rfl
      | cons frame rest => cases frame <;> rfl
    simp [Reader.step, hnext, h, hafter]

theorem result? (h : Holds [] v r) : r.result? = some v := by
  cases h with
  | delivered => rfl
  | number h => simp [Reader.result?, h]

theorem feed (h : Holds frames v r) {c : Char} (hc : c ∈ [',', ']', '\x7d']) (cs : List Char) :
    r.feed (c :: cs) = (deliver frames v).feed (c :: cs) := by
  rw [feed_cons, feed_cons, h.step hc]

end Holds

mutual

/-- A value is read back from what it is written as, with anything open around it. -/
theorem feed_write : ∀ v : Json, Legible v → ∀ (frames : List Frame) (mayClose : Bool),
    ∃ r, feed ⟨frames, .value mayClose⟩ (write v) = some r ∧ Holds frames v r
  | .null, _, frames, _ => ⟨_, rfl, .delivered .null⟩
  | .bool true, _, frames, _ => ⟨_, rfl, .delivered (.bool true)⟩
  | .bool false, _, frames, _ => ⟨_, rfl, .delivered (.bool false)⟩
  | .number literal, h, frames, mayClose => by
    obtain ⟨part, hpart, hfeed⟩ := feed_literal frames mayClose (by simpa [Legible] using h)
    exact ⟨_, by simpa [write] using hfeed, .number hpart⟩
  | .text content, _, frames, mayClose => by
    obtain ⟨cs, h⟩ : ∃ cs, writeContent content = '"' :: cs := by cases content <;> exact ⟨_, rfl⟩
    have hcs := feed_content frames false content
    refine ⟨_, ?_, .delivered _⟩
    rw [h] at hcs
    rw [write, h]
    exact feed_step (r := ⟨frames, .text false {}⟩) rfl hcs
  | .array items, h, frames, mayClose => by
    have hitems := feed_writeItems items (by simpa [Legible] using h) frames [] true (fun _ => rfl)
    exact ⟨_, by rw [write]; exact feed_step rfl hitems, .delivered _⟩
  | .object members, h, frames, mayClose => by
    have hmembers :=
      feed_writeMembers members (by simpa [Legible] using h) frames [] true (fun _ => rfl)
    exact ⟨_, by rw [write]; exact feed_step rfl hmembers, .delivered _⟩

/-- The items of an array, behind those already read. -/
theorem feed_writeItems : ∀ items : List Json, LegibleItems items →
    ∀ (frames : List Frame) (done : List Json) (mayClose : Bool),
    (items = [] → mayClose = true) →
    feed ⟨.array done :: frames, .value mayClose⟩ (writeItems items)
      = some (deliver frames (.array (done.reverse ++ items)))
  | [], _, frames, done, mayClose, hclose => by
    obtain rfl := hclose rfl
    rw [List.append_nil]
    rfl
  | [item], h, frames, done, mayClose, _ => by
    obtain ⟨r, hr, hholds⟩ := feed_write item h.1 (.array done :: frames) mayClose
    rw [writeItems]
    refine feed_trans hr ?_
    rw [hholds.feed (by simp)]
    exact feed_step rfl (by simp [feed])
  | item :: next :: items, h, frames, done, mayClose, _ => by
    obtain ⟨r, hr, hholds⟩ := feed_write item h.1 (.array done :: frames) mayClose
    have hrest := feed_writeItems (next :: items) h.2 frames (item :: done) false (by simp)
    rw [writeItems]
    · refine feed_trans hr ?_
      rw [hholds.feed (by simp)]
      refine feed_step (r := ⟨.array (item :: done) :: frames, .value false⟩) rfl ?_
      rw [hrest, List.reverse_cons, List.append_assoc, List.singleton_append]
    · simp

/-- The members of an object, behind those already read. -/
theorem feed_writeMembers : ∀ members : List (Option String × Json), LegibleMembers members →
    ∀ (frames : List Frame) (done : List (Option String × Json)) (mayClose : Bool),
    (members = [] → mayClose = true) →
    feed ⟨.object done :: frames, .key mayClose⟩ (writeMembers members)
      = some (deliver frames (.object (done.reverse ++ members)))
  | [], _, frames, done, mayClose, hclose => by
    obtain rfl := hclose rfl
    rw [List.append_nil]
    rfl
  | [(key, value)], h, frames, done, mayClose, _ => by
    obtain ⟨r, hr, hholds⟩ := feed_write value h.1 (.member done key :: frames) false
    rw [writeMembers]
    refine feed_trans (feed_key frames done mayClose key) ?_
    refine feed_step (r := ⟨.member done key :: frames, .value false⟩) rfl (feed_trans hr ?_)
    rw [hholds.feed (by simp)]
    exact feed_step rfl (by simp [feed])
  | (key, value) :: next :: members, h, frames, done, mayClose, _ => by
    obtain ⟨r, hr, hholds⟩ := feed_write value h.1 (.member done key :: frames) false
    have hrest :=
      feed_writeMembers (next :: members) h.2 frames ((key, value) :: done) false (by simp)
    rw [writeMembers]
    · refine feed_trans (feed_key frames done mayClose key) ?_
      refine feed_step (r := ⟨.member done key :: frames, .value false⟩) rfl (feed_trans hr ?_)
      rw [hholds.feed (by simp)]
      refine feed_step (r := ⟨.object ((key, value) :: done) :: frames, .key false⟩) rfl ?_
      rw [hrest, List.reverse_cons, List.append_assoc, List.singleton_append]
    · simp

end

end Reader

/-- Reading undoes writing. -/
theorem read?_render {v : Json} (h : Legible v) : read? (render v) = some v := by
  obtain ⟨r, hr, hholds⟩ := Reader.feed_write v h [] false
  have hr' : ({} : Reader).feed (write v) = some r := hr
  rw [read?, render, String.toList_ofList, hr', Option.bind_some, hholds.result?]

end ClusterLink.Json
