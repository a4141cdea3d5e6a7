import Mathlib.Data.List.Basic
import Mathlib.Data.List.Induction
import ClusterLink.Proofs.Cluster.Place
import ClusterLink.Proofs.Text.Utf8

/-! What the registries hold after any calls. A watch is registered just if the last call with a say
about its name has added it (`find?_serve`), so a registry is a map in which the last writer wins.
What it lists is in the strict order of octets, and its watchers of an object are those of the
watches that it lists. -/

namespace ClusterLink

/-! ## In the order of octets -/

/-- Keys are in order by namespace and then by name. -/
def Key.Before (j k : Key) : Prop :=
  Utf8.encode j.space < Utf8.encode k.space ∨
    j.space = k.space ∧ Utf8.encode j.name < Utf8.encode k.name

theorem Key.compare_eq_lt_iff {j k : Key} : compare j k = .lt ↔ j.Before k := by
  show (compare j.space k.space).then (compare j.name k.name) = .lt ↔ _
  rw [Ordering.then_eq_lt, Std.LawfulEqCmp.compare_eq_iff_eq, Utf8.compare_eq_lt_iff,
    Utf8.compare_eq_lt_iff]
  rfl

theorem Dict.pairwise_keys [Ord κ] (d : Dict κ ν) : d.keys.Pairwise fun a b => compare a b = .lt :=
  List.pairwise_map.2 d.sorted

theorem Key.pairwise_sortUnique (keys : List Key) : (sortUnique keys).Pairwise Key.Before :=
  (Dict.pairwise_keys _).imp Key.compare_eq_lt_iff.1

namespace Registry

theorem mem_registrations {r : Registry} (h : ∀ ⦃name w⦄, r.find? name = some w → w.name = name)
    {w : Watch} : w ∈ r.registrations ↔ r.find? w.name = some w := by
  rw [registrations, Dict.mem_values_iff]
  constructor
  · rintro ⟨name, hw⟩
    rw [h hw]
    exact hw
  · exact fun hw => ⟨_, hw⟩

theorem pairwise_registrations {r : Registry}
    (h : ∀ ⦃name w⦄, r.find? name = some w → w.name = name) :
    r.registrations.Pairwise fun v w => Utf8.encode v.name < Utf8.encode w.name := by
  have hname : ∀ e ∈ r.entries, e.2.name = e.1 := fun e he => h ((r.mem_entries_iff ..).1 he)
  refine List.pairwise_map.2 (r.sorted.imp_of_mem fun {d e} hd he hlt => ?_)
  rw [hname d hd, hname e he]
  exact Utf8.compare_eq_lt_iff.1 hlt

/-- The watchers of an object are those of the watches that are listed for it. -/
theorem mem_watchersOf_iff {r : Registry} {watched k : Key} : k ∈ r.watchersOf watched ↔
    ∃ w ∈ r.registrations, w.watched = watched ∧ w.watcher = k := by
  simp only [watchersOf, Key.mem_sortUnique, List.mem_map, List.mem_filter, decide_eq_true_eq,
    and_assoc]

end Registry

namespace Cluster

/-- The cluster after some calls. -/
def serve (c : Cluster) (calls : List Call) : Cluster :=
  calls.foldl (fun c q => (c.answer q).2) c

/-- A call has a say about the watch of a name: it adds one, which is taken, or removes it. -/
inductive Settles (c : Cluster) (side : Side) (name : String) : Call → Prop where
  | added {w : Watch} (hn : w.name = name) (h : (c.answer (.addWatch side w)).1 = .ok ()) :
    Settles c side name (.addWatch side w)
  | removed : Settles c side name (.removeWatch side name)

/-- Of some calls, the last that has a say about the name of a watch adds that watch. -/
def LastWord (c : Cluster) (side : Side) (calls : List Call) (w : Watch) : Prop :=
  ∃ earlier later, calls = earlier ++ .addWatch side w :: later ∧
    (c.serve earlier).Settles side w.name (.addWatch side w) ∧
    ∀ between q rest, later = between ++ q :: rest →
      ¬(c.serve (earlier ++ .addWatch side w :: between)).Settles side w.name q

variable {c : Cluster} {side : Side} {w : Watch} {name : String} {q : Call} {calls : List Call}

theorem serve_concat (c : Cluster) (calls : List Call) (q : Call) :
    c.serve (calls ++ [q]) = ((c.serve calls).answer q).2 := by
  simp [serve]

/-! ## One call -/

/-- A watch is taken just if it has a name and its keys are complete. -/
theorem answer_addWatch_eq_ok_iff :
    (c.answer (.addWatch side w)).1 = .ok () ↔ w.isComplete := by
  simp only [answer]
  split
  next e he => simp [Registry.incomplete_of_add he]
  next r hr => simp [(Registry.complete_of_add hr).1]

/-- A refused watch changes nothing. -/
theorem answer_addWatch_of_error {e : WatchError}
    (h : (c.answer (.addWatch side w)).1 = .error e) : (c.answer (.addWatch side w)).2 = c := by
  simp only [answer] at h ⊢
  split at h
  next => rfl
  next => cases h

theorem find?_of_added (h : (c.answer (.addWatch side w)).1 = .ok ()) :
    (((c.answer (.addWatch side w)).2.watches.get side).find? w.name) = some w := by
  rw [c.answer_addWatch_of_complete side (answer_addWatch_eq_ok_iff.1 h)]
  simp [setRegistry]

theorem find?_of_removed (c : Cluster) (side : Side) (name : String) :
    (((c.answer (.removeWatch side name)).2.watches.get side).find? name) = none := by
  simp [answer, Registry.remove]

/-- A call without a say about a name leaves its watch as it was. -/
theorem find?_of_not_settles (h : ¬c.Settles side name q) :
    (((c.answer q).2.watches.get side).find? name) = (c.watches.get side).find? name := by
  by_cases hq : q.place? = some (.watch side name)
  · cases q with
    | addWatch other w =>
      cases hq
      cases ha : (c.answer (.addWatch side w)).1 with
      | ok => exact absurd (.added rfl ha) h
      | error e => rw [answer_addWatch_of_error ha]
    | removeWatch other name =>
      cases hq
      exact absurd .removed h
    | _ => cases hq
  · exact c.entry_answer_of_ne hq

/-! ## Many calls -/

/-- The last word after one more call. -/
theorem lastWord_concat : c.LastWord side (calls ++ [q]) w ↔
    q = .addWatch side w ∧ (c.serve calls).Settles side w.name q ∨
      c.LastWord side calls w ∧ ¬(c.serve calls).Settles side w.name q := by
  constructor
  · rintro ⟨earlier, later, hcalls, hw, hlater⟩
    rcases later.eq_nil_or_concat' with rfl | ⟨later, last, rfl⟩
    · obtain ⟨rfl, hq⟩ := List.append_inj' hcalls rfl
      cases hq
      exact .inl ⟨rfl, hw⟩
    · rw [← List.cons_append, ← List.append_assoc] at hcalls
      obtain ⟨rfl, hq⟩ := List.append_inj' hcalls rfl
      cases hq
      refine .inr ⟨⟨earlier, later, rfl, hw, fun between q' rest h => ?_⟩, hlater later q [] rfl⟩
      exact hlater between q' (rest ++ [q]) (by rw [h, List.append_assoc, List.cons_append])
  · rintro (⟨rfl, hw⟩ | ⟨⟨earlier, later, rfl, hw, hlater⟩, hq⟩)
    · exact ⟨calls, [], rfl, hw, fun _ _ _ h => absurd h (by simp)⟩
    · refine ⟨earlier, later ++ [q], by simp, hw, fun between q' rest h => ?_⟩
      rcases rest.eq_nil_or_concat' with rfl | ⟨rest, last, rfl⟩
      · obtain ⟨rfl, hlast⟩ := List.append_inj' h rfl
        obtain rfl := List.singleton_inj.1 hlast
        exact hq
      · rw [← List.cons_append, ← List.append_assoc] at h
        exact hlater between q' rest (List.append_inj' h rfl).1

/-- From an empty registry, the watch of a name is the one of the last word about the name. -/
theorem find?_serve (h : (c.watches.get side).find? name = none) (calls : List Call) (w : Watch) :
    ((c.serve calls).watches.get side).find? name = some w ↔
      w.name = name ∧ c.LastWord side calls w := by
  induction calls using List.reverseRecOn with
  | nil => simp [serve, LastWord, h]
  | append_singleton calls q ih =>
    rw [serve_concat, lastWord_concat]
    by_cases hq : (c.serve calls).Settles side name q
    · cases hq with
      | @added v hn hok =>
        subst hn
        rw [find?_of_added hok]
        constructor
        · rintro ⟨⟩
          exact ⟨rfl, .inl ⟨rfl, .added rfl hok⟩⟩
        · rintro ⟨hn, ⟨h, -⟩ | ⟨-, h⟩⟩
          · cases h
            rfl
          · exact absurd (hn ▸ .added rfl hok) h
      | removed =>
        rw [find?_of_removed]
        refine iff_of_false (fun h => nomatch h) ?_
        rintro ⟨rfl, ⟨h, -⟩ | ⟨-, h⟩⟩
        · cases h
        · exact absurd .removed h
    · rw [find?_of_not_settles hq, ih]
      constructor
      · rintro ⟨rfl, hw⟩
        exact ⟨rfl, .inr ⟨hw, hq⟩⟩
      · rintro ⟨rfl, ⟨rfl, hw⟩ | ⟨hw, -⟩⟩
        · exact absurd hw hq
        · exact ⟨rfl, hw⟩

/-- **The last writer wins.** Whatever calls are made of a store and its registries, empty at first:
a watch is taken just if it has a name and complete keys, and one that is refused changes nothing. A
registry lists, in the strict order of their names, those watches that the last call with a say
about their name has added, as that call gave them. The keys that a change of an object concerns
come in strict order too, and are the watchers of the watches that are listed for that object. -/
theorem last_writer_wins (s : Store) (calls : List Call) (side : Side) :
    let start : Cluster := ⟨s, .empty⟩
    let c := start.serve calls
    let r := c.watches.get side
    (∀ w, (c.answer (.addWatch side w)).1 = .ok () ↔
      w.name ≠ "" ∧ w.watched.isComplete ∧ w.watcher.isComplete) ∧
    (∀ w e, (c.answer (.addWatch side w)).1 = .error e → (c.answer (.addWatch side w)).2 = c) ∧
    (r.registrations.Pairwise fun v w => Utf8.encode v.name < Utf8.encode w.name) ∧
    (∀ w, w ∈ r.registrations ↔ start.LastWord side calls w) ∧
    ∀ watched, (r.watchersOf watched).Pairwise Key.Before ∧
      ∀ k, k ∈ r.watchersOf watched ↔
        ∃ w ∈ r.registrations, w.watched = watched ∧ w.watcher = k := by
  intro start c r
  have hempty (name : String) : (start.watches.get side).find? name = none := by
    cases side <;> rfl
  have hfind (name : String) (w : Watch) :
      r.find? name = some w ↔ w.name = name ∧ start.LastWord side calls w :=
    find?_serve (hempty name) calls w
  have hnamed : ∀ ⦃name w⦄, r.find? name = some w → w.name = name :=
    fun name w hw => ((hfind name w).1 hw).1
  refine ⟨fun w => ?_, fun w e => answer_addWatch_of_error, Registry.pairwise_registrations hnamed,
    fun w => ?_, fun watched => ⟨Key.pairwise_sortUnique _, fun k => Registry.mem_watchersOf_iff⟩⟩
  · rw [answer_addWatch_eq_ok_iff]
    simp [Watch.isComplete, and_assoc]
  · rw [Registry.mem_registrations hnamed, hfind]
    exact ⟨fun h => h.2, fun h => ⟨rfl, h⟩⟩

/-- Of two watches under one name the later one stands, so its watcher moves from one object to
another. A watch without a name is refused, and a letter of two octets stands behind plain ones. -/
theorem last_writer_wins_of_moved :
    let a : Key := ⟨"ns", "a"⟩
    let b : Key := ⟨"ns", "ä"⟩
    let calls : List Call := [.addWatch .kibana ⟨"w", ⟨"ns", "x"⟩, a⟩,
      .addWatch .kibana ⟨"v", ⟨"ns", "y"⟩, b⟩, .addWatch .kibana ⟨"u", ⟨"ns", "y"⟩, b⟩,
      .addWatch .kibana ⟨"w", ⟨"ns", "y"⟩, a⟩, .removeWatch .kibana "u"]
    let c := (⟨.new 4, .empty⟩ : Cluster).serve calls
    let refused := c.answer (.addWatch .kibana ⟨"", ⟨"ns", "y"⟩, b⟩)
    c.watches.kibana.registrations = [⟨"v", ⟨"ns", "y"⟩, b⟩, ⟨"w", ⟨"ns", "y"⟩, a⟩] ∧
      c.watches.kibana.watchersOf ⟨"ns", "x"⟩ = [] ∧
      c.watches.kibana.watchersOf ⟨"ns", "y"⟩ = [a, b] ∧
      (c.watches.kibana.watchersOf ⟨"ns", "y"⟩).Pairwise Key.Before ∧
      refused.1 = .error .emptyName ∧ refused.2 = c := by
  intro a b calls c refused
  obtain ⟨-, hrefused, -, -, hfan⟩ := last_writer_wins (.new 4) calls .kibana
  have he : refused.1 = .error .emptyName := rfl
  exact ⟨by decide +kernel, by decide +kernel, by decide +kernel, (hfan ⟨"ns", "y"⟩).1, he,
    hrefused _ _ he⟩

end Cluster

end ClusterLink
