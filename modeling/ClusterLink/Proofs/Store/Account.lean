import ClusterLink.Proofs.Store.Effect

/-! The log gives an account of the store. A command that changes a table changes one place and logs
one event, which is about that place; one that fails does neither; and of every kind just those keys
are there whose last event says so. -/

namespace ClusterLink

/-- What the last event about an object says. -/
def EventLog.lastAction? (log : EventLog) (kind : Kind) (key : Key) : Option Action :=
  (log.events.toList.filter fun e => e.kind = kind ∧ e.key = key).getLast?.map Event.action

theorem EventLog.lastAction?_append (log : EventLog) (e : Event) (kind : Kind) (key : Key) :
    (log.append e).lastAction? kind key =
      if e.kind = kind ∧ e.key = key then some e.action else log.lastAction? kind key := by
  unfold lastAction? append
  rw [Array.toList_push, List.filter_append]
  by_cases h : e.kind = kind ∧ e.key = key
  · simp [h]
  · simp [h]

namespace Store

/-- The tables without the rest. -/
def tables (s : Store) : Table Association × Table Elasticsearch × Table Kibana × Table Secret :=
  (s.associations, s.elasticsearches, s.kibanas, s.secrets)

/-- What is there is what was last applied and not deleted. -/
def Shown (s : Store) : Prop :=
  ∀ kind key, (s.find? kind key).isSome ↔ s.log.lastAction? kind key = some .applied

/-- What the log says of the tables, and will say of the next change. -/
structure Accounted (s : Store) : Prop where
  /-- A change of the tables is one of one place, and is logged as such. -/
  told : ∀ cmd, (s.perform cmd).2.tables ≠ s.tables → ∃ kind key,
    (∀ k x, (s.perform cmd).2.find? k x ≠ s.find? k x ↔ k = kind ∧ x = key) ∧
    (s.perform cmd).2.log = s.log.append
      ⟨kind, key, if ((s.perform cmd).2.find? kind key).isSome then .applied else .deleted⟩
  /-- A command that fails, or finds nothing to delete, at most uses up the fault that it met. -/
  refused : ∀ cmd, (s.perform cmd).1 ≠ .ok true → (s.perform cmd).2 = s ∨
    ∃ op e, cmd.operation? = some op ∧ s.fault? op = some e ∧
      s.perform cmd = (.error e, s.clearFault op)
  shown : s.Shown

variable {s s' : Store}

/-! ## One command -/

theorem Revised.ne {r r' : Option Object} (h : Revised s s' r r') : r' ≠ r := by
  cases h with
  | created | removed => exact nofun
  | @raised o o' _ hversion =>
    intro heq
    rw [Option.some.inj heq] at hversion
    simp at hversion

theorem Wrote.changed_iff {kind : Kind} {key : Key} {o : Option Object} (h : s.Wrote kind key o s')
    (k : Kind) (x : Key) : s'.find? k x ≠ s.find? k x ↔ k = kind ∧ x = key := by
  constructor
  · intro hne
    refine Decidable.byContradiction fun hp => ?_
    exact hne (h.others k x fun hk hx => hp ⟨hk, hx⟩)
  · rintro ⟨rfl, rfl⟩
    exact h.found ▸ h.revised.ne

theorem Effect.told {cmd : Command} {answer} (h : s.Effect cmd answer s')
    (ht : s'.tables ≠ s.tables) : ∃ kind key,
      (∀ k x, s'.find? k x ≠ s.find? k x ↔ k = kind ∧ x = key) ∧ s'.log = s.log.append
        ⟨kind, key, if (s'.find? kind key).isSome then .applied else .deleted⟩ := by
  cases h with
  | faulted | refused | absent | idle | repeated => exact absurd rfl ht
  | @wrote kind key o s' hw => exact ⟨kind, key, hw.changed_iff, by rw [hw.found, hw.log]⟩

theorem Effect.spared {cmd : Command} {answer} (h : s.Effect cmd answer s')
    (ha : answer ≠ .ok true) : s' = s ∨ ∃ op e, cmd.operation? = some op ∧ s.fault? op = some e ∧
      (answer, s') = (.error e, s.clearFault op) := by
  cases h with
  | @faulted op e hop he => exact .inr ⟨op, e, hop, he, rfl⟩
  | refused | absent => exact .inl rfl
  | idle | repeated | wrote => exact absurd rfl ha

theorem Effect.shown {cmd : Command} {answer} (h : s.Effect cmd answer s') (hs : s.Shown) :
    s'.Shown := by
  intro kind key
  cases h with
  | faulted => rw [find?_clearFault]; exact hs kind key
  | refused | absent => exact hs kind key
  | idle => rw [find?_withFaults]; exact hs kind key
  | @repeated place a ha =>
    rw [find?_emit, emit, EventLog.lastAction?_append]
    split
    next hp =>
      obtain ⟨rfl, rfl⟩ := hp
      simp [find?, ha]
    next => exact hs kind key
  | @wrote k x o s' hw =>
    rw [hw.log, EventLog.lastAction?_append]
    by_cases hp : k = kind ∧ x = key
    · rw [if_pos hp]
      obtain ⟨rfl, rfl⟩ := hp
      rw [hw.found]
      cases o <;> simp
    · rw [if_neg hp, hw.others kind key fun hk hx => hp ⟨hk.symm, hx.symm⟩]
      exact hs kind key

/-! ## All commands -/

theorem Shown.new (n : Nat) : (new n).Shown := by
  intro kind key
  cases kind <;> exact ⟨nofun, nofun⟩

theorem Shown.after (h : s.Shown) (hk : s.Keyed) (l : List Command) : (s.after l).Shown := by
  induction l generalizing s with
  | nil => exact h
  | cons cmd l ih => exact ih ((perform_effect hk cmd).shown h) (hk.perform cmd)

/-- Whatever is done to a store that is empty at first, its log accounts for it. -/
theorem accounted_of_new (n : Nat) (l : List Command) : ((new n).after l).Accounted := by
  have hk := (Keyed.new n).after l
  constructor
  case told => exact fun cmd => (perform_effect hk cmd).told
  case refused => exact fun cmd => (perform_effect hk cmd).spared
  case shown => exact (Shown.new n).after (.new n) l

end Store

end ClusterLink
