import Mathlib.Data.List.Nodup
import ClusterLink.Proofs.Queue.Sound

/-! Who has a key. A `Run` of the queue records what was done to it and by whom, the latest deed
first. `held` reads off the record which keys were handed out and not given back, `Deferred` which
of them came in again meanwhile. `Kept` ties the three lists of the queue to the record; every deed
keeps it, so no key is queued twice or handed to a second worker. -/

namespace ClusterLink.WorkQueue

/-- What somebody does to a queue. -/
inductive Deed where
  /-- A key came in: from an event, a listing, or a timer that fired. -/
  | added (key : Key)
  /-- A worker asked for a key and was told so. -/
  | asked (worker : Nat) (told : Taken)
  | gaveBack (worker : Nat) (key : Key)
  | failed (key : Key)
  | forgot (key : Key)
  | closed

/-- The keys that were handed out and not given back since, with the workers that have them. -/
def held : List Deed → List (Nat × Key)
  | [] => []
  | .asked worker (.key key) :: past => (worker, key) :: held past
  | .gaveBack worker key :: past => (held past).erase (worker, key)
  | _ :: past => held past

/-- A key came in while a worker held it, and was not given back since. -/
def Deferred (key : Key) (past : List Deed) : Prop :=
  ∃ later earlier worker, past = later ++ .added key :: earlier ∧ (worker, key) ∈ held earlier ∧
    ∀ w, .gaveBack w key ∉ later

/-- The queues that any deeds lead to, where a key is given back only by one who holds it. -/
inductive Run : List Deed → WorkQueue → Prop where
  | new : Run [] new
  | add {past q} (h : Run past q) (key : Key) : Run (.added key :: past) (q.offer key).2
  | ask {past q} (h : Run past q) (worker : Nat) : Run (.asked worker q.take.1 :: past) q.take.2
  | giveBack {past q worker key} (h : Run past q) (hk : (worker, key) ∈ held past) :
    Run (.gaveBack worker key :: past) (q.finish key).2
  | fail {past q} (h : Run past q) (key : Key) : Run (.failed key :: past) (q.countFailure key).2
  | forget {past q} (h : Run past q) (key : Key) : Run (.forgot key :: past) (q.forget key)
  | close {past q} (h : Run past q) : Run (.closed :: past) q.shutDown

/-! ## The record -/

section Record

variable {past : List Deed} {deed : Deed} {key x : Key} {worker : Nat}

theorem mem_held_cons (h : (worker, key) ∈ held past) (hd : deed ≠ .gaveBack worker key) :
    (worker, key) ∈ held (deed :: past) := by
  cases deed with
  | added | failed | forgot | closed => exact h
  | asked w told =>
    cases told with
    | key k => exact List.mem_cons_of_mem _ h
    | shutDown | empty => exact h
  | gaveBack w k =>
    have hne : (worker, key) ≠ (w, k) := by
      rintro ⟨⟩
      exact hd rfl
    exact (List.mem_erase_of_ne hne).2 h

theorem held_of_deferred (h : Deferred key past) : ∃ worker, (worker, key) ∈ held past := by
  obtain ⟨later, earlier, worker, rfl, hw, hback⟩ := h
  refine ⟨worker, ?_⟩
  induction later with
  | nil => exact hw
  | cons deed later ih =>
    refine mem_held_cons (ih fun w hm => hback w (List.mem_cons_of_mem _ hm)) ?_
    rintro rfl
    exact hback worker List.mem_cons_self

theorem Deferred.of_added (h : (worker, key) ∈ held past) : Deferred key (.added key :: past) :=
  ⟨[], past, worker, rfl, h, fun _ hm => nomatch hm⟩

theorem Deferred.cons (h : Deferred key past) (hd : ∀ w, deed ≠ .gaveBack w key) :
    Deferred key (deed :: past) := by
  obtain ⟨later, earlier, worker, rfl, hw, hback⟩ := h
  refine ⟨deed :: later, earlier, worker, rfl, hw, fun w hm => ?_⟩
  rcases List.mem_cons.1 hm with e | hm
  · exact hd w e.symm
  · exact hback w hm

/-- Only the deed itself, or one before it, can have deferred a key. -/
theorem Deferred.uncons (h : Deferred key (deed :: past)) :
    (∀ w, deed ≠ .gaveBack w key) ∧
      (Deferred key past ∨ deed = .added key ∧ ∃ worker, (worker, key) ∈ held past) := by
  obtain ⟨later, earlier, worker, hpast, hw, hback⟩ := h
  cases later with
  | nil =>
    obtain ⟨rfl, rfl⟩ := List.cons.inj hpast
    exact ⟨fun w e => (nomatch e), .inr ⟨rfl, worker, hw⟩⟩
  | cons d later =>
    obtain ⟨rfl, rfl⟩ := List.cons.inj hpast
    refine ⟨?_, .inl ⟨later, earlier, worker, rfl, hw, fun w hm => ?_⟩⟩
    · rintro w rfl
      exact hback w List.mem_cons_self
    · exact hback w (List.mem_cons_of_mem _ hm)

theorem deferred_added : Deferred x (.added key :: past) ↔
    Deferred x past ∨ x = key ∧ ∃ worker, (worker, x) ∈ held past := by
  constructor
  · intro h
    obtain ⟨-, h | ⟨e, hw⟩⟩ := h.uncons
    · exact .inl h
    · exact .inr ⟨(Deed.added.inj e).symm, hw⟩
  · rintro (h | ⟨rfl, worker, hw⟩)
    · exact h.cons fun w e => nomatch e
    · exact .of_added hw

theorem deferred_gaveBack :
    Deferred x (.gaveBack worker key :: past) ↔ Deferred x past ∧ x ≠ key := by
  constructor
  · intro h
    obtain ⟨hback, h | ⟨e, -⟩⟩ := h.uncons
    · refine ⟨h, ?_⟩
      rintro rfl
      exact hback worker rfl
    · cases e
  · rintro ⟨h, hne⟩
    exact h.cons fun w e => hne (Deed.gaveBack.inj e).2.symm

/-- A deed that brings no key in and gives none back defers as many as before. -/
theorem deferred_cons (hadd : ∀ k, deed ≠ .added k) (hback : ∀ w k, deed ≠ .gaveBack w k) :
    Deferred x (deed :: past) ↔ Deferred x past := by
  constructor
  · intro h
    obtain ⟨-, h | ⟨e, -⟩⟩ := h.uncons
    · exact h
    · exact absurd e (hadd x)
  · exact fun h => h.cons fun w => hback w x

theorem deferred_asked {told : Taken} :
    Deferred x (.asked worker told :: past) ↔ Deferred x past :=
  deferred_cons (fun _ e => nomatch e) fun _ _ e => nomatch e

end Record

/-! ## The queue and its record -/

/-- The queue is as its record says. -/
structure Kept (past : List Deed) (q : WorkQueue) : Prop where
  nodup : q.queue.Nodup
  free : ∀ ⦃key⦄, key ∈ q.queue → key ∉ q.processing
  processing : ∀ key, key ∈ q.processing ↔ ∃ worker, (worker, key) ∈ held past
  alone : ((held past).map Prod.snd).Nodup
  closed : .closed ∈ past → q.shuttingDown = true
  sound : .closed ∉ past → q.Sound
  dirty : .closed ∉ past → ∀ key, key ∈ q.dirty ↔ key ∈ q.queue ∨ Deferred key past

variable {past : List Deed} {q : WorkQueue}

theorem Kept.new : Kept [] new where
  nodup := .nil
  free := fun _ h => nomatch h
  processing key := ⟨fun h => (nomatch h), fun ⟨_, h⟩ => (nomatch h)⟩
  alone := .nil
  closed h := nomatch h
  sound _ := .new
  dirty _ key := by
    refine ⟨fun h => (nomatch h), ?_⟩
    rintro (h | ⟨later, earlier, -, e, -⟩)
    · cases h
    · exact absurd e.symm (by simp)

/-- A deed that leaves the lists of the queue alone. -/
theorem Kept.idle (h : Kept past q) {deed : Deed} {q' : WorkQueue}
    (hlists : q'.queue = q.queue ∧ q'.dirty = q.dirty ∧ q'.processing = q.processing ∧
      q'.shuttingDown = q.shuttingDown)
    (hheld : held (deed :: past) = held past)
    (hdef : .closed ∉ past → ∀ key, key ∈ q.dirty ↔ key ∈ q.queue ∨ Deferred key (deed :: past))
    (hdeed : deed ≠ .closed) : Kept (deed :: past) q' := by
  obtain ⟨hq, hd, hp, hs⟩ := hlists
  have old : .closed ∉ deed :: past → .closed ∉ past :=
    fun hc hm => hc (List.mem_cons_of_mem _ hm)
  refine ⟨hq ▸ h.nodup, ?_, ?_, hheld ▸ h.alone, fun hc => ?_, fun hc => ?_, fun hc => ?_⟩
  · rw [hq, hp]
    exact h.free
  · rw [hp, hheld]
    exact h.processing
  · rcases List.mem_cons.1 hc with e | hc
    · exact absurd e.symm hdeed
    · exact hs.trans (h.closed hc)
  · have hsound := h.sound (old hc)
    refine ⟨hs.trans hsound.isOpen, hq ▸ hsound.nodup, ?_, ?_, ?_⟩
    · rw [hq, hd]
      exact hsound.dirty_of_queued
    · rw [hq, hp]
      exact hsound.free_of_queued
    · rw [hq, hd, hp]
      exact hsound.queued_of_dirty
  · rw [hd, hq]
    exact hdef (old hc)

theorem Kept.add (h : Kept past q) (key : Key) : Kept (.added key :: past) (q.offer key).2 := by
  by_cases hc : .closed ∈ past
  · have hoff : (q.offer key).2 = q := by simp [offer, h.closed hc]
    rw [hoff]
    exact h.idle ⟨rfl, rfl, rfl, rfl⟩ rfl (fun hn => absurd hc hn) (fun e => nomatch e)
  have hsound := h.sound hc
  have hdirty : ∀ x, x ∈ (q.offer key).2.dirty ↔
      x ∈ (q.offer key).2.queue ∨ Deferred x (.added key :: past) := by
    intro x
    rw [hsound.mem_dirty_offer, hsound.mem_queue_offer, deferred_added, ← h.processing]
    have hx := h.dirty hc x
    by_cases e : x = key
    · -- Whether the key waits already, is held, or neither, it came in now.
      subst e
      simp only [true_or, true_and, true_iff]
      by_cases hd : x ∈ q.dirty
      · exact (hx.1 hd).imp .inl .inl
      · by_cases hp : x ∈ q.processing
        · exact .inr (.inr hp)
        · exact .inl (.inr ⟨hd, hp⟩)
    · simpa only [e, false_or, false_and, or_false] using hx
  have hs' := hsound.offer key
  refine ⟨hs'.nodup, hs'.free_of_queued, ?_, h.alone, fun hm => ?_, fun _ => hs', fun _ => hdirty⟩
  · rw [q.offer_processing]
    exact h.processing
  · rcases List.mem_cons.1 hm with e | hm
    · cases e
    · exact absurd hm hc

theorem Kept.ask (h : Kept past q) (worker : Nat) :
    Kept (.asked worker q.take.1 :: past) q.take.2 := by
  by_cases hc : .closed ∈ past
  · have ht : q.take = (.shutDown, q) := by simp [take, h.closed hc]
    rw [ht]
    exact h.idle ⟨rfl, rfl, rfl, rfl⟩ rfl (fun hn => absurd hc hn) (fun e => nomatch e)
  have hsound := h.sound hc
  have hs' := hsound.take
  match hq : q.queue with
  | [] =>
    have ht : q.take = (.empty, q) := by simp [take, hsound.isOpen, hq]
    rw [ht]
    refine h.idle ⟨rfl, rfl, rfl, rfl⟩ rfl (fun _ key => ?_) (fun e => nomatch e)
    rw [h.dirty hc, deferred_asked]
  | key :: rest =>
    have ht : q.take = (.key key, { q with
        queue := rest, dirty := unmark key q.dirty, processing := mark key q.processing }) := by
      simp [take, hsound.isOpen, hq]
    rw [ht] at hs' ⊢
    have hfree : key ∉ q.processing := h.free (hq ▸ List.mem_cons_self)
    have hnodup := List.nodup_cons.1 (hq ▸ h.nodup)
    refine ⟨hs'.nodup, hs'.free_of_queued, fun x => ?_, ?_, fun hm => ?_, fun _ => hs',
      fun _ x => ?_⟩
    · simp only [mem_mark, h.processing, held, List.mem_cons, Prod.mk.injEq]
      constructor
      · rintro (rfl | ⟨w, hw⟩)
        · exact ⟨worker, .inl ⟨rfl, rfl⟩⟩
        · exact ⟨w, .inr hw⟩
      · rintro ⟨w, ⟨-, rfl⟩ | hw⟩
        · exact .inl rfl
        · exact .inr ⟨w, hw⟩
    · refine List.nodup_cons.2 ⟨fun hm => ?_, h.alone⟩
      obtain ⟨⟨w, k⟩, hw, rfl⟩ := List.mem_map.1 hm
      exact hfree ((h.processing k).2 ⟨w, hw⟩)
    · rcases List.mem_cons.1 hm with e | hm
      · cases e
      · exact absurd hm hc
    · rw [mem_unmark, h.dirty hc, hq, List.mem_cons, deferred_asked]
      constructor
      · rintro ⟨(hx | hx) | hx, hne⟩
        · exact absurd hx hne
        · exact .inl hx
        · exact .inr hx
      -- What is deferred is held, so it is not the key that is handed out now.
      · rintro (hx | hx)
        · exact ⟨.inl (.inr hx), fun e => hnodup.1 (e ▸ hx)⟩
        · refine ⟨.inr hx, ?_⟩
          rintro rfl
          exact hfree ((h.processing x).2 (held_of_deferred hx))

/-- Giving a key back ends the hold of the one worker that has it. -/
theorem Kept.mem_held_gaveBack (h : Kept past q) {worker : Nat} {key : Key}
    (hk : (worker, key) ∈ held past) (w : Nat) (x : Key) :
    (w, x) ∈ held (.gaveBack worker key :: past) ↔ (w, x) ∈ held past ∧ x ≠ key := by
  have hnodup : (held past).Nodup := .of_map Prod.snd h.alone
  rw [held, hnodup.mem_erase_iff]
  constructor
  · rintro ⟨hne, hw⟩
    refine ⟨hw, ?_⟩
    rintro rfl
    exact hne (List.inj_on_of_nodup_map h.alone hw hk rfl)
  · rintro ⟨hw, hne⟩
    refine ⟨?_, hw⟩
    rintro ⟨⟩
    exact hne rfl

theorem Kept.giveBack (h : Kept past q) {worker : Nat} {key : Key}
    (hk : (worker, key) ∈ held past) :
    Kept (.gaveBack worker key :: past) (q.finish key).2 := by
  have hproc : key ∈ q.processing := (h.processing key).2 ⟨worker, hk⟩
  have hqueue : key ∉ q.queue := fun hm => h.free hm hproc
  have hprocessing : ∀ x, x ∈ (q.finish key).2.processing ↔
      ∃ w, (w, x) ∈ held (.gaveBack worker key :: past) := by
    intro x
    simp only [q.finish_processing, mem_unmark, h.processing, h.mem_held_gaveBack hk]
    exact ⟨fun ⟨⟨w, hw⟩, hne⟩ => ⟨w, hw, hne⟩, fun ⟨w, hw, hne⟩ => ⟨⟨w, hw⟩, hne⟩⟩
  have halone : ((held (.gaveBack worker key :: past)).map Prod.snd).Nodup :=
    h.alone.sublist (List.erase_sublist.map _)
  by_cases hc : .closed ∈ past
  · have hf : (q.finish key).2 = { q with processing := unmark key q.processing } := by
      simp [finish, h.closed hc]
    have hfree : ∀ ⦃x⦄, x ∈ q.queue → x ∉ unmark key q.processing :=
      fun x hx hp => h.free hx (mem_unmark.1 hp).1
    have hn : .closed ∈ Deed.gaveBack worker key :: past := List.mem_cons_of_mem _ hc
    refine ⟨?_, ?_, hprocessing, halone, fun _ => ?_, fun hno => absurd hn hno,
      fun hno => absurd hn hno⟩
    · rw [hf]
      exact h.nodup
    · rw [hf]
      exact hfree
    · rw [hf]
      exact h.closed hc
  · have hsound := h.sound hc
    have hs' := hsound.finish hproc
    refine ⟨hs'.nodup, hs'.free_of_queued, hprocessing, halone, fun hm => ?_, fun _ => hs',
      fun _ x => ?_⟩
    · rcases List.mem_cons.1 hm with e | hm
      · cases e
      · exact absurd hm hc
    · rw [q.finish_dirty, hsound.mem_queue_finish, deferred_gaveBack]
      have hx := h.dirty hc x
      by_cases e : x = key
      · subst e
        simp only [true_and, ne_eq, not_true_eq_false, and_false, or_false]
        exact ⟨.inr, fun hm => hm.elim (fun hm => absurd hm hqueue) id⟩
      · simpa only [e, false_and, or_false, ne_eq, not_false_eq_true, and_true] using hx

theorem Kept.close (h : Kept past q) : Kept (.closed :: past) q.shutDown where
  nodup := h.nodup
  free := h.free
  processing := h.processing
  alone := h.alone
  closed _ := rfl
  sound hn := absurd List.mem_cons_self hn
  dirty hn := absurd List.mem_cons_self hn

theorem Run.kept (h : Run past q) : Kept past q := by
  induction h with
  | new => exact .new
  | add _ key ih => exact ih.add key
  | ask _ worker ih => exact ih.ask worker
  | giveBack _ hk ih => exact ih.giveBack hk
  | @fail past q _ key ih | @forget past q _ key ih =>
    refine ih.idle ⟨rfl, rfl, rfl, rfl⟩ rfl (fun hc x => (ih.dirty hc x).trans ?_)
      (fun e => nomatch e)
    refine or_congr_right (deferred_cons ?_ ?_).symm
    · exact fun k e => nomatch e
    · exact fun w k e => nomatch e
  | close _ ih => exact ih.close

/-- No key is queued twice or while a worker has it, and none is handed to a worker while another
has it. Until the queue is closed, the keys that came in and were not handed out since are those
that are queued and those that are deferred. -/
theorem exclusive_of_run (h : Run past q) :
    q.queue.Nodup ∧ (∀ key ∈ q.queue, key ∉ q.processing) ∧
    (.closed ∉ past → (∀ key, key ∈ q.dirty ↔ key ∈ q.queue ∨ Deferred key past) ∧
      (∀ key ∈ q.dirty, key ∈ q.queue ∨ key ∈ q.processing) ∧ ∀ key ∈ q.queue, key ∈ q.dirty) ∧
    (∀ key, key ∈ q.processing ↔ ∃ worker, (worker, key) ∈ held past) ∧
    ((held past).map Prod.snd).Nodup ∧
    ∀ key, q.take.1 = .key key → ∀ worker, (worker, key) ∉ held past := by
  have hk := h.kept
  refine ⟨hk.nodup, hk.free, fun hc => ?_, hk.processing, hk.alone, fun key ht worker hw => ?_⟩
  · have hsound := hk.sound hc
    exact ⟨hk.dirty hc, hsound.queued_of_dirty, hsound.dirty_of_queued⟩
  · have hnodup := (h.ask worker).kept.alone
    rw [ht] at hnodup
    exact (List.nodup_cons.1 hnodup).1 (List.mem_map_of_mem hw)

/-- A key comes in again while its worker has it; a second worker gets nothing. -/
theorem exclusive_of_added_twice :
    let a : Key := ⟨"ns", "a"⟩
    let q := ((new.offer a).2.take.2.offer a).2.take.2
    let past : List Deed := [.asked 2 .empty, .added a, .asked 1 (.key a), .added a]
    Run past q ∧ held past = [(1, a)] ∧ q.dirty = [a] ∧ q.queue = [] ∧ Deferred a past := by
  intro a q past
  have h : Run past q := .ask (.add (.ask (.add .new a) 1) a) 2
  obtain ⟨-, -, hopen, -⟩ := exclusive_of_run h
  have hdirty := (hopen (by simp [past])).1 a
  have hd : q.dirty = [a] := by decide
  have hq : q.queue = [] := by decide
  refine ⟨h, by decide, hd, hq, ?_⟩
  rcases hdirty.1 (hd ▸ List.mem_singleton_self a) with hm | hm
  · rw [hq] at hm
    cases hm
  · exact hm

end ClusterLink.WorkQueue
