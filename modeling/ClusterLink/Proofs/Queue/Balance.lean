import ClusterLink.Proofs.Controller.Stand
import ClusterLink.Proofs.Queue.Sound
import ClusterLink.Queue.Wakeup
import Mathlib.Algebra.BigOperators.Group.List.Basic
import Mathlib.Algebra.GroupWithZero.Nat
import Mathlib.Data.List.Nodup
import Mathlib.Logic.Function.Basic

/-! The balance between keys and wakings. While one who saw an empty queue still waits, every queued
key is seen to: by a task that is about to look or to wake another, or by one that was woken already
and has not gone on. Each operation of the queue and of its waking keeps the balance. -/

namespace ClusterLink

namespace Wakeup

/-- All who announced themselves. -/
def listed (u : Wakeup) : List Nat := u.waiting ++ u.woken ++ u.released

variable {u : Wakeup} {waiter i : Nat}

theorem mem_listed : i ∈ u.listed ↔ i ∈ u.waiting ∨ i ∈ u.woken ∨ i ∈ u.released := by
  simp [listed]

theorem perm_enable (u : Wakeup) (waiter : Nat) :
    (u.enable waiter).listed.Perm (waiter :: u.listed) := by
  unfold enable listed
  split
  next => simpa using List.perm_append_singleton waiter (u.waiting ++ u.woken ++ u.released)
  next => simp

theorem perm_notifyOne (u : Wakeup) : u.notifyOne.listed.Perm u.listed := by
  unfold notifyOne listed
  split
  next h => simp [h]
  next first rest h =>
    rw [h]
    simpa using @List.perm_middle _ first (rest ++ u.woken) u.released

theorem perm_notifyAll (u : Wakeup) : u.notifyAll.listed.Perm u.listed := by
  simpa [notifyAll, listed] using
    (@List.perm_append_comm _ u.waiting (u.woken ++ u.released)).symm

theorem listed_remove (u : Wakeup) (waiter : Nat) :
    (u.remove waiter).listed = u.listed.filter (· != waiter) := by
  simp [remove, listed]

theorem perm_leave (u : Wakeup) (waiter : Nat) :
    (u.leave waiter).listed.Perm (u.listed.filter (· != waiter)) := by
  unfold leave
  dsimp only
  split
  next => exact (perm_notifyOne _).trans (.of_eq (listed_remove ..))
  next => exact .of_eq (listed_remove ..)

theorem woken_notifyOne (h : u.notifyOne.waiting ≠ []) :
    u.notifyOne.woken.length = u.woken.length + 1 := by
  unfold notifyOne at h ⊢
  split
  next hw => simp [hw] at h
  next => simp

theorem waiting_notifyOne (h : i ∈ u.notifyOne.waiting) : i ∈ u.waiting := by
  unfold notifyOne at h
  split at h
  next => exact h
  next hw => exact hw ▸ List.mem_cons_of_mem _ h

theorem woken_remove (h : u.listed.Nodup) (waiter : Nat) :
    u.woken.length ≤ (u.remove waiter).woken.length + 1 := by
  have hwoken : u.woken.Nodup := (List.nodup_append.1 (List.nodup_append.1 h).1).2.1
  have he : (u.remove waiter).woken = u.woken.erase waiter := (hwoken.erase_eq_filter _).symm
  rw [he, List.length_erase]
  split <;> omega

/-- One who leaves without having slept takes no waking with it. -/
theorem woken_leave (h : u.listed.Nodup) (hw : (u.leave waiter).waiting ≠ []) :
    u.woken.length ≤ (u.leave waiter).woken.length := by
  unfold leave at hw ⊢
  dsimp only at hw ⊢
  split
  next hc =>
    rw [if_pos hc] at hw
    rw [woken_notifyOne hw]
    exact woken_remove h waiter
  next hc =>
    have hnot : waiter ∉ u.woken := by simpa using hc
    have hsame : (u.remove waiter).woken = u.woken :=
      List.filter_eq_self.2 fun i hi => bne_iff_ne.2 (ne_of_mem_of_not_mem hi hnot)
    exact Nat.le_of_eq (congrArg List.length hsame.symm)

theorem waiting_leave (h : i ∈ (u.leave waiter).waiting) : i ∈ u.waiting := by
  unfold leave at h
  dsimp only at h
  split at h
  next => exact (List.mem_filter.1 (waiting_notifyOne h)).1
  next => exact (List.mem_filter.1 h).1

theorem waiting_enable (h : i ∈ (u.enable waiter).waiting) : i = waiter ∨ i ∈ u.waiting := by
  unfold enable at h
  split at h
  next => exact .inr h
  next => exact (List.mem_append.1 h).symm.imp_left List.mem_singleton.1

theorem woken_enable (u : Wakeup) (waiter : Nat) : (u.enable waiter).woken = u.woken := by
  unfold enable
  split <;> rfl

end Wakeup

/-- How many keys are seen to by some tasks. -/
def credits (stand : TaskId → Stand) (ids : List TaskId) : Nat :=
  (ids.map fun id => (stand id).credit).sum

section

variable {stand : TaskId → Stand} {ids : List TaskId} {id : TaskId} {s : Stand}

theorem credits_erase (stand : TaskId → Stand) (h : id ∈ ids) :
    credits stand ids = (stand id).credit + credits stand (ids.erase id) :=
  ((List.perm_cons_erase h).map _).sum_eq

theorem credits_update_of_not_mem (h : id ∉ ids) :
    credits (Function.update stand id s) ids = credits stand ids :=
  congrArg List.sum <| List.map_congr_left fun _ hi =>
    congrArg Stand.credit (Function.update_of_ne (ne_of_mem_of_not_mem hi h) ..)

/-- When one task goes elsewhere only its own part changes. -/
theorem credits_update (hids : ids.Nodup) (h : id ∈ ids) :
    credits (Function.update stand id s) ids + (stand id).credit =
      credits stand ids + s.credit := by
  rw [credits_erase _ h, credits_erase stand h, Function.update_self,
    credits_update_of_not_mem hids.not_mem_erase]
  omega

end

/-- The tasks that announced themselves are those that stand there, and while one of them sleeps
every queued key is seen to, or the queue is closed and all are about to be woken. -/
structure Balanced (q : WorkQueue) (u : Wakeup) (stand : TaskId → Stand) (ids : List TaskId) :
    Prop where
  nodup : u.listed.Nodup
  listed : ∀ ⦃id⦄, id ∈ u.listed ↔ id ∈ ids ∧ (stand id).IsListed
  seen : (∃ id ∈ u.waiting, stand id = .looked) → q.shuttingDown = false →
    q.queue.length ≤ credits stand ids + u.woken.length
  closing : (∃ id ∈ u.waiting, stand id = .looked) → q.shuttingDown = true →
    ∃ id ∈ ids, stand id = .closing

namespace Balanced

variable {q q' : WorkQueue} {u u' : Wakeup} {stand : TaskId → Stand} {ids : List TaskId}
  {id : TaskId} {s : Stand}

theorem new : Balanced .new .new stand [] := by
  constructor <;> simp [Wakeup.new, Wakeup.listed]

/-- Only the keys in the queue count, and whether it is closed. -/
theorem congr (h : Balanced q u stand ids) (hq : q'.queue = q.queue)
    (hd : q'.shuttingDown = q.shuttingDown) : Balanced q' u stand ids :=
  ⟨h.nodup, h.listed, by rw [hq, hd]; exact h.seen, by rw [hd]; exact h.closing⟩

/-! ## Tasks that come and go -/

theorem join (h : Balanced q u stand ids) (hid : id ∉ ids) :
    Balanced q u (Function.update stand id .idle) (ids ++ [id]) := by
  have old {i : TaskId} (hi : i ∈ ids) : Function.update stand id .idle i = stand i :=
    Function.update_of_ne (ne_of_mem_of_not_mem hi hid) ..
  have sleeper (hs : ∃ i ∈ u.waiting, Function.update stand id .idle i = .looked) :
      ∃ i ∈ u.waiting, stand i = .looked := by
    obtain ⟨i, hi, hl⟩ := hs
    have hmem : i ∈ ids := (h.listed.1 (Wakeup.mem_listed.2 (.inl hi))).1
    exact ⟨i, hi, old hmem ▸ hl⟩
  refine ⟨h.nodup, fun i => ?_, fun hs hd => ?_, fun hs hd => ?_⟩
  · rw [h.listed, List.mem_append, List.mem_singleton]
    by_cases e : i = id
    · subst e
      simp [hid, Stand.IsListed]
    · simp [e]
  · have hsum : credits (Function.update stand id .idle) (ids ++ [id]) = credits stand ids := by
      have hnew : credits (Function.update stand id .idle) ids = credits stand ids :=
        credits_update_of_not_mem hid
      rw [← hnew]
      simp [credits, Stand.credit]
    rw [hsum]
    exact h.seen (sleeper hs) hd
  · obtain ⟨i, hi, hc⟩ := h.closing (sleeper hs) hd
    exact ⟨i, List.mem_append_left _ hi, (old hi).trans hc⟩

theorem part (h : Balanced q u stand ids) (hs : stand id = .idle) :
    Balanced q u stand (ids.erase id) := by
  have keep {i : TaskId} (hi : stand i ≠ .idle) : i ∈ ids.erase id ↔ i ∈ ids :=
    List.mem_erase_of_ne fun (e : i = id) => hi (e ▸ hs)
  refine ⟨h.nodup, fun i => ?_, fun hl hd => ?_, fun hl hd => ?_⟩
  · rw [h.listed]
    by_cases hi : stand i = .idle
    · simp [hi, Stand.IsListed]
    · rw [keep hi]
  · have hsum : credits stand (ids.erase id) = credits stand ids := by
      by_cases hid : id ∈ ids
      · simp [credits_erase stand hid, hs, Stand.credit]
      · rw [List.erase_of_not_mem hid]
    rw [hsum]
    exact h.seen hl hd
  · obtain ⟨i, hi, hc⟩ := h.closing hl hd
    exact ⟨i, (keep (by simp [hc])).2 hi, hc⟩

/-! ## One operation of one task -/

theorem not_mem (h : Balanced q u stand ids) (hs : ¬(stand id).IsListed) : id ∉ u.listed :=
  fun hm => hs (h.listed.1 hm).2

/-- What an operation of one task has to do for the balance. -/
theorem step (h : Balanced q u stand ids) (hids : ids.Nodup) (hid : id ∈ ids)
    (hnodup : u'.listed.Nodup)
    (hlisted : ∀ i, i ∈ u'.listed ↔ i = id ∧ s.IsListed ∨ i ≠ id ∧ i ∈ u.listed)
    (hwaiting : ∀ i ∈ u'.waiting, i = id ∨ i ∈ u.waiting)
    (hlooked : s = .looked → q'.queue = [] ∧ q'.shuttingDown = false)
    (hseen : s ≠ .looked → u'.waiting ≠ [] → q'.shuttingDown = false → q.shuttingDown = false ∧
      q'.queue.length + (stand id).credit + u.woken.length ≤
        q.queue.length + s.credit + u'.woken.length)
    (hclosing : s ≠ .looked → u'.waiting ≠ [] → q'.shuttingDown = true →
      s = .closing ∨ q.shuttingDown = true ∧ stand id ≠ .closing) :
    Balanced q' u' (Function.update stand id s) ids := by
  have sleeper (hs : s ≠ .looked) (hl : ∃ i ∈ u'.waiting, Function.update stand id s i = .looked) :
      u'.waiting ≠ [] ∧ ∃ i ∈ u.waiting, stand i = .looked := by
    obtain ⟨i, hi, hl⟩ := hl
    by_cases e : i = id
    · subst e
      rw [Function.update_self] at hl
      exact absurd hl hs
    · rw [Function.update_of_ne e] at hl
      exact ⟨List.ne_nil_of_mem hi, i, (hwaiting i hi).resolve_left e, hl⟩
  refine ⟨hnodup, fun i => ?_, fun hl hd => ?_, fun hl hd => ?_⟩
  · rw [hlisted]
    by_cases e : i = id
    · subst e
      simp [hid]
    · simp [e, h.listed]
  · by_cases hs : s = .looked
    · simp [(hlooked hs).1]
    · obtain ⟨hne, hold⟩ := sleeper hs hl
      obtain ⟨hopen, hle⟩ := hseen hs hne hd
      have hsum : credits (Function.update stand id s) ids + (stand id).credit =
          credits stand ids + s.credit := credits_update hids hid
      have hbefore := h.seen hold hopen
      omega
  · by_cases hs : s = .looked
    · simp [(hlooked hs).2] at hd
    · obtain ⟨hne, hold⟩ := sleeper hs hl
      rcases hclosing hs hne hd with rfl | ⟨hdown, hstand⟩
      · exact ⟨id, hid, Function.update_self ..⟩
      · obtain ⟨j, hj, hc⟩ := h.closing hold hdown
        refine ⟨j, hj, (Function.update_of_ne (fun e => ?_) ..).trans hc⟩
        exact hstand (e ▸ hc)

/-- An operation that leaves the announcements alone, of a task that has none. -/
theorem step_of_unlisted (h : Balanced q u stand ids) (hids : ids.Nodup) (hid : id ∈ ids)
    (hu : u'.listed.Perm u.listed) (hwaiting : ∀ i ∈ u'.waiting, i ∈ u.waiting)
    (hold : ¬(stand id).IsListed) (hs : ¬s.IsListed)
    (hseen : u'.waiting ≠ [] → q'.shuttingDown = false → q.shuttingDown = false ∧
      q'.queue.length + (stand id).credit + u.woken.length ≤
        q.queue.length + s.credit + u'.woken.length)
    (hclosing : u'.waiting ≠ [] → q'.shuttingDown = true →
      s = .closing ∨ q.shuttingDown = true ∧ stand id ≠ .closing) :
    Balanced q' u' (Function.update stand id s) ids := by
  refine h.step hids hid (hu.nodup_iff.2 h.nodup) (fun i => ?_) (fun i hi => .inr (hwaiting i hi))
    (fun e => absurd (e ▸ trivial) hs) (fun _ => hseen) fun _ => hclosing
  rw [hu.mem_iff]
  by_cases e : i = id
  · subst e
    simp [hs, h.not_mem hold]
  · simp [e]

theorem enable (h : Balanced q u stand ids) (hids : ids.Nodup) (hid : id ∈ ids)
    (hs : stand id = .idle ∨ stand id = .roused) :
    Balanced q (u.enable id) (Function.update stand id .announced) ids := by
  have hperm := u.perm_enable id
  have hnot : id ∉ u.listed := h.not_mem (by rcases hs with e | e <;> simp [e, Stand.IsListed])
  have hcredit : (stand id).credit ≤ Stand.announced.credit := by
    rcases hs with e | e <;> simp [e, Stand.credit]
  refine h.step hids hid (hperm.nodup_iff.2 (List.nodup_cons.2 ⟨hnot, h.nodup⟩)) (fun i => ?_)
    (fun i hi => Wakeup.waiting_enable hi) nofun (fun _ _ hd => ⟨hd, ?_⟩)
    fun _ _ hd => .inr ⟨hd, ?_⟩
  · rw [hperm.mem_iff, List.mem_cons]
    by_cases e : i = id <;> simp [e, Stand.IsListed]
  · rw [u.woken_enable]
    omega
  · rcases hs with e | e <;> simp [e]

/-- One who looks into the queue takes a key, or may sleep. -/
theorem take (h : Balanced q u stand ids) (hids : ids.Nodup) (hid : id ∈ ids)
    (hs : stand id = .announced) : Balanced q.take.2 u
      (Function.update stand id (if q.take.1 = .empty then .looked else .leaving)) ids := by
  have hmem : id ∈ u.listed := h.listed.2 ⟨hid, by simp [hs, Stand.IsListed]⟩
  have hlisted (s : Stand) (hl : s.IsListed) (i : TaskId) :
      i ∈ u.listed ↔ i = id ∧ s.IsListed ∨ i ≠ id ∧ i ∈ u.listed := by
    by_cases e : i = id
    · subst e
      simp [hl, hmem]
    · simp [e]
  rcases q.take_queue with ⟨hd, ht⟩ | ⟨hd, hq, ht⟩ | ⟨key, hd, ht, hd', hq⟩
  · rw [ht]
    refine h.step hids hid h.nodup (hlisted _ trivial) (fun _ _ => .inr ‹_›) nofun
      (fun _ _ hopen => ?_) fun _ _ _ => .inr ⟨hd, by simp [hs]⟩
    simp [hd] at hopen
  · rw [ht]
    exact h.step hids hid h.nodup (hlisted _ trivial) (fun _ _ => .inr ‹_›) (fun _ => ⟨hq, hd⟩)
      (fun hne => absurd rfl hne) fun hne => absurd rfl hne
  · rw [ht]
    refine h.step hids hid h.nodup (hlisted _ trivial) (fun _ _ => .inr ‹_›) nofun
      (fun _ _ _ => ⟨hd, ?_⟩) fun _ _ hdown => ?_
    · simp [hq, hs, Stand.credit]
    · simp [hd'] at hdown

/-- One who goes on after having slept is about to look again. -/
theorem sleep (h : Balanced q u stand ids) (hids : ids.Nodup) (hid : id ∈ ids)
    (hs : stand id = .looked) :
    Balanced q (u.resume id) (Function.update stand id .roused) ids := by
  have hlist : (u.resume id).listed = u.listed.filter (· != id) := u.listed_remove id
  have hwoken : u.woken.length ≤ (u.resume id).woken.length + 1 := Wakeup.woken_remove h.nodup id
  refine h.step hids hid (hlist ▸ h.nodup.filter _) (fun i => ?_)
    (fun i hi => .inr (List.mem_filter.1 hi).1) nofun (fun _ _ hd => ⟨hd, ?_⟩)
    fun _ _ hd => .inr ⟨hd, by simp [hs]⟩
  · rw [hlist, List.mem_filter]
    by_cases e : i = id <;> simp [e, Stand.IsListed]
  · simp only [hs, Stand.credit]
    omega

theorem leave (h : Balanced q u stand ids) (hids : ids.Nodup) (hid : id ∈ ids)
    (hs : stand id = .leaving) :
    Balanced q (u.leave id) (Function.update stand id .idle) ids := by
  have hperm := u.perm_leave id
  refine h.step hids hid (hperm.nodup_iff.2 (h.nodup.filter _)) (fun i => ?_)
    (fun i hi => .inr (Wakeup.waiting_leave hi)) nofun (fun _ hne hd => ⟨hd, ?_⟩)
    fun _ _ hd => .inr ⟨hd, by simp [hs]⟩
  · rw [hperm.mem_iff, List.mem_filter]
    by_cases e : i = id <;> simp [e, Stand.IsListed]
  · have hwoken := Wakeup.woken_leave h.nodup hne
    simp only [hs, Stand.credit]
    omega

/-- One who queued a key, or did not, as one who adds or gives a key back. -/
theorem push (h : Balanced q u stand ids) (hids : ids.Nodup) (hid : id ∈ ids)
    (hs : stand id = .idle) {queued : Bool} {key : Key}
    (hq : q'.queue = if queued then q.queue ++ [key] else q.queue)
    (hd : q'.shuttingDown = q.shuttingDown) :
    Balanced q' u (Function.update stand id (if queued then .owing else .idle)) ids := by
  refine h.step_of_unlisted hids hid (.refl _) (fun _ hi => hi) (by simp [hs, Stand.IsListed])
    (by cases queued <;> simp [Stand.IsListed]) (fun _ hopen => ⟨hd ▸ hopen, ?_⟩)
    fun _ hdown => .inr ⟨hd ▸ hdown, by simp [hs]⟩
  cases queued <;> simp [hq, hs, Stand.credit]

theorem notifyOne (h : Balanced q u stand ids) (hids : ids.Nodup) (hid : id ∈ ids)
    (hs : stand id = .owing) : Balanced q u.notifyOne (Function.update stand id .idle) ids := by
  refine h.step_of_unlisted hids hid u.perm_notifyOne (fun _ => Wakeup.waiting_notifyOne)
    (by simp [hs, Stand.IsListed]) (by simp [Stand.IsListed]) (fun hne hopen => ⟨hopen, ?_⟩)
    fun _ hdown => .inr ⟨hdown, by simp [hs]⟩
  rw [Wakeup.woken_notifyOne hne]
  simp only [hs, Stand.credit]
  omega

theorem shutDown (h : Balanced q u stand ids) (hids : ids.Nodup) (hid : id ∈ ids)
    (hs : stand id = .idle) :
    Balanced q.shutDown u (Function.update stand id .closing) ids :=
  h.step_of_unlisted hids hid (.refl _) (fun _ hi => hi) (by simp [hs, Stand.IsListed])
    (by simp [Stand.IsListed]) (fun _ => nofun) fun _ _ => .inl rfl

theorem notifyAll (h : Balanced q u stand ids) (hids : ids.Nodup) (hid : id ∈ ids)
    (hs : stand id = .closing) :
    Balanced q u.notifyAll (Function.update stand id .idle) ids :=
  h.step_of_unlisted hids hid u.perm_notifyAll nofun (by simp [hs, Stand.IsListed])
    (by simp [Stand.IsListed]) (fun hne => absurd rfl hne) fun hne => absurd rfl hne

end Balanced

end ClusterLink
