import ClusterLink.Proofs.Reconcile.Current
import ClusterLink.Proofs.Simulation.Run

/-! Who is on the way to look at an association. A key is roused if it came in, or if a task or an
unread event will bring it in for certain; there are news of an object if its watchers will be
looked up. `World.Spares` is what one step has to leave to the keys that it is not about: each of
the things that rouse a key gives way only to another one (`Passes.spares`). -/

namespace ClusterLink.World

open Reconcile Work

/-- There is an event about an object that a reader of the log has not got yet. -/
def Unread (w : World) (kind : Kind) (key : Key) : Prop :=
  ∃ id place, (id, place) ∈ w.readers ∧ w.cluster.store.log.Tells place kind key

/-- The watchers of an object will be looked up. -/
def News (w : World) (side : Side) (key : Key) : Prop :=
  w.Unread side.kind key ∨ ∃ t ∈ w.tasks, t.work.Maps side.kind key

/-- A key has come in, or will for certain if its association stays. -/
def Roused (w : World) (key : Key) : Prop :=
  key ∈ w.queue.dirty ∨ w.Unread .association key ∨
    ∃ t ∈ w.tasks, t.work.Offers key ∨ t.work.Sweeps

/-- An association is stored. -/
def Stores (w : World) (key : Key) : Prop := ∃ a, w.cluster.store.associations.find? key = some a

/-- A reconcile at a stage has read what is current, unless the key is roused anyway. -/
def Seen (w : World) (key : Key) (s : Stage) : Prop :=
  w.Stores key → ¬w.Roused key → s.Current w.News key w.cluster

/-- A step leaves a key to itself: it rouses it, or what was read of it is as current as before. -/
def Spares (key : Key) (w w' : World) : Prop :=
  w'.Stores key → ¬w'.Roused key → ¬w.Roused key ∧
    Cluster.Keeps w.News key w'.News w.cluster w'.cluster

variable {w w' w₁ : World} {key : Key} {kind : Kind} {side : Side} {t : Task}

theorem Roused.of_dirty (h : key ∈ w.queue.dirty) : w.Roused key := .inl h

theorem Roused.of_unread (h : w.Unread .association key) : w.Roused key := .inr (.inl h)

theorem Roused.of_offers (ht : t ∈ w.tasks) (h : t.work.Offers key) : w.Roused key :=
  .inr (.inr ⟨t, ht, .inl h⟩)

theorem Roused.of_sweeps (ht : t ∈ w.tasks) (h : t.work.Sweeps) : w.Roused key :=
  .inr (.inr ⟨t, ht, .inr h⟩)

theorem Seen.of_roused (h : w.Roused key) (s : Stage) : w.Seen key s := fun _ hn => absurd h hn

theorem Seen.mono {s : Stage} (h : w.Seen key s) (hs : Spares key w w') : w'.Seen key s := by
  intro ⟨a, ha⟩ hn
  obtain ⟨hr, hk⟩ := hs ⟨a, ha⟩ hn
  exact (h ⟨a, hk.association ▸ ha⟩ hr).mono hk

/-! ## What a task leaves behind -/

/-- What a piece of work was going to do for a key is done or will be. -/
structure Discharges (key : Key) (p : Round) (w' : World) : Prop where
  offers : p.Offers key → w'.Roused key
  sweeps : p.Sweeps → w'.Stores key → w'.Roused key
  maps : ∀ side r, p.Maps side.kind r → w'.cluster.Registered side key r →
    w'.News side r ∨ w'.Roused key

theorem Discharges.of_mem (h : t ∈ w'.tasks) : Discharges key t.work w' where
  offers ho := .of_offers h ho
  sweeps hs _ := .of_sweeps h hs
  maps _ _ hm _ := .inl (.inr ⟨t, h, hm⟩)

theorem Discharges.of_done {ending : Option Ending} : Discharges key (.done ending) w' :=
  ⟨fun h => h.elim, fun h => h.elim, fun _ _ h => h.elim⟩

theorem mem_watchersOf {r : Key} (h : w.cluster.Registered side key r) :
    key ∈ w.cluster.watches.watchersOf side.kind r := by
  rw [Watches.watchersOf_kind]
  exact Registry.mem_watchersOf.2 ⟨_, _, h, rfl, rfl⟩

/-- A task that goes on from a truthful answer still does what it was going to, unless the request
was that. -/
theorem Discharges.of_answer {r : Request} {answer : r.Answer} {next : r.Answer → Round}
    (hkeyed : w.cluster.store.Keyed) (ho : ¬r.Refused answer) (htrue : w.Truthful r answer)
    (hc : (∀ q, r ≠ .call q) → w'.cluster = w.cluster)
    (hmade : (r = .offer key ∨ ∃ delay, r = .addLater key delay) → w'.Roused key)
    (ht : t ∈ w'.tasks) (hw : t.work = next answer) : Discharges key (.ask r next) w' := by
  have old : Discharges key (next answer) w' := hw ▸ .of_mem ht
  refine ⟨fun h => ?_, fun h hs => ?_, fun side x h hr => ?_⟩
  · by_cases hm : r = .offer key ∨ ∃ delay, r = .addLater key delay
    · exact hmade hm
    · exact old.offers (Makes.step h hm ho)
  -- A listing is truthful, and every stored association stands under its own key.
  · cases r <;> first | exact h.elim | skip
    case list =>
      cases answer with
      | error => exact absurd trivial ho
      | ok l =>
        obtain ⟨a, ha⟩ := hs
        rw [hc fun _ h => nomatch h] at ha
        have hmem : a ∈ w.cluster.store.associations.values :=
          (Dict.mem_values_iff _ a).2 ⟨key, ha⟩
        obtain rfl : l = w.cluster.store.associations.values := htrue
        obtain rfl : a.key = key := hkeyed.associations ha
        exact old.offers (h _ a hmem)
    case subscribe => exact old.sweeps (h answer) hs
  · cases r <;> first | exact h.elim | skip
    case watchersOf kind' key' =>
      obtain ⟨⟨rfl, rfl⟩, hkeys⟩ := h
      obtain rfl : answer = w.cluster.watches.watchersOf side.kind key' := htrue
      rw [hc fun _ h => nomatch h] at hr
      exact .inr (old.offers (hkeys _ key (mem_watchersOf hr)))

/-- What rouses a key or brings news, before a step, is there afterwards or has had its effect. -/
structure Passes (key : Key) (w w' : World) : Prop where
  queued : key ∈ w.queue.dirty → w'.Roused key
  told : w.Unread .association key → w'.Roused key
  news : ∀ side r, w.Unread side.kind r → w'.News side r
  tasks : ∀ t ∈ w.tasks, Discharges key t.work w'

namespace Passes

theorem of_kept (hq : key ∈ w.queue.dirty → key ∈ w'.queue.dirty)
    (hr : ∀ x ∈ w.readers, x ∈ w'.readers)
    (hlog : w'.cluster.store.log.Extends w.cluster.store.log)
    (ht : ∀ t ∈ w.tasks, Discharges key t.work w') : Passes key w w' := by
  have unread : ∀ {kind r}, w.Unread kind r → w'.Unread kind r :=
    fun ⟨id, place, hm, h⟩ => ⟨id, place, hr _ hm, hlog.tells h⟩
  exact ⟨fun hd => .of_dirty (hq hd), fun hu => .of_unread (unread hu),
    fun _ _ hu => .inl (unread hu), ht⟩

theorem not_roused (h : Passes key w w') (hs : w'.Stores key) (hn : ¬w'.Roused key) :
    ¬w.Roused key := by
  rintro (hd | hu | ⟨t, ht, ho | hsw⟩)
  · exact hn (h.queued hd)
  · exact hn (h.told hu)
  · exact hn ((h.tasks t ht).offers ho)
  · exact hn ((h.tasks t ht).sweeps hsw hs)

theorem news_of (h : Passes key w w') (hn : ¬w'.Roused key) {r : Key} (hnews : w.News side r)
    (hr : w'.cluster.Registered side key r) : w'.News side r := by
  rcases hnews with hu | ⟨t, ht, hm⟩
  · exact h.news _ _ hu
  · exact ((h.tasks t ht).maps _ _ hm hr).resolve_right hn

/-- A step that leaves the cluster alone. -/
theorem spares (h : Passes key w w') (hc : w'.cluster = w.cluster) : Spares key w w' :=
  fun hs hn => ⟨h.not_roused hs hn, .of_eq (congrArg _ hc) (congrArg _ hc) fun _ _ hnews hr =>
    h.news_of hn hnews (hc ▸ hr)⟩

/-- A step that changes the store, while somebody reads the log. -/
theorem spares_of_logs (h : Passes key w w')
    (hlogs : w.cluster.store.Logs w'.cluster.store)
    (hread : w'.Stores key → ¬w'.Roused key → ∀ kind r,
      w'.cluster.store.log.Tells w.cluster.store.log.size kind r → w'.Unread kind r)
    (hsecrets : w'.cluster.store.secrets = w.cluster.store.secrets)
    (hwatch : w'.Stores key → ∀ side, (w'.cluster.watches.get side).find? (side.watchName key) =
      (w.cluster.watches.get side).find? (side.watchName key)) : Spares key w w' := by
  intro hs hn
  have hread := hread hs hn
  refine ⟨h.not_roused hs hn, ?_, hsecrets, hwatch hs, fun r => ?_, fun r => ?_,
    fun _ _ hnews hr => h.news_of hn hnews hr⟩
  · refine (hlogs.associations key).resolve_right fun ht => hn (.of_unread (hread _ _ ht))
  · exact (hlogs.elasticsearches r).imp_right fun ht => .inl (hread .elasticsearch _ ht)
  · exact (hlogs.kibanas r).imp_right fun ht => .inl (hread .kibana _ ht)

end Passes

end ClusterLink.World
