import ClusterLink.Proofs.Queue.Custody

/-! What comes in is handed out, and nothing else is. The dirty keys of an open queue are those that
came in and were not handed out since (`Run.mem_dirty`). So no key that came in is lost, and whoever
gets a key gets it for something that came in after it was handed out before. -/

namespace ClusterLink.WorkQueue

/-- A key came in and was not handed out since. -/
def Awaited (key : Key) : List Deed → Prop
  | [] => False
  | .added k :: past => k = key ∨ Awaited key past
  | .asked _ (.key k) :: past => k ≠ key ∧ Awaited key past
  | _ :: past => Awaited key past

variable {past later : List Deed} {q : WorkQueue} {key : Key} {worker : Nat}

/-! ## The record -/

theorem Awaited.append (h : Awaited key past) (hout : ∀ w, .asked w (.key key) ∉ later) :
    Awaited key (later ++ past) := by
  induction later with
  | nil => exact h
  | cons deed later ih =>
    have ih := ih fun w hm => hout w (List.mem_cons_of_mem _ hm)
    cases deed with
    | added k => exact .inr ih
    | asked w told =>
      cases told with
      | key k =>
        refine ⟨?_, ih⟩
        rintro rfl
        exact hout w List.mem_cons_self
      | shutDown | empty => exact ih
    | gaveBack | failed | forgot | closed => exact ih

/-- Where an awaited key came in. -/
theorem Awaited.added (h : Awaited key past) : ∃ later earlier,
    past = later ++ .added key :: earlier ∧ ∀ w, .asked w (.key key) ∉ later := by
  induction past with
  | nil => exact h.elim
  | cons deed past ih =>
    have skip (hp : Awaited key past) (hd : ∀ w, deed ≠ .asked w (.key key)) :
        ∃ later earlier, deed :: past = later ++ .added key :: earlier ∧
          ∀ w, .asked w (.key key) ∉ later := by
      obtain ⟨later, earlier, rfl, hout⟩ := ih hp
      refine ⟨deed :: later, earlier, rfl, fun w hm => ?_⟩
      rcases List.mem_cons.1 hm with e | hm
      · exact hd w e.symm
      · exact hout w hm
    cases deed with
    | added k =>
      rcases h with rfl | h
      · exact ⟨[], past, rfl, fun _ hm => nomatch hm⟩
      · exact skip h fun w e => nomatch e
    | asked w told =>
      cases told with
      | key k =>
        refine skip h.2 fun w' e => ?_
        cases e
        exact h.1 rfl
      | shutDown | empty => exact skip h fun w e => nomatch e
    | gaveBack | failed | forgot | closed => exact skip h fun w e => nomatch e

/-- What was done before was a run as well. -/
theorem Run.earlier (h : Run (later ++ past) q) : ∃ q', Run past q' := by
  induction later generalizing q with
  | nil => exact ⟨q, h⟩
  | cons deed later ih =>
    cases h with
    | add h | ask h | giveBack h | fail h | forget h | close h => exact ih h

theorem Run.asked {told : Taken} (h : Run (.asked worker told :: past) q) :
    ∃ q', Run past q' ∧ q'.take.1 = told := by
  generalize hdeed : Deed.asked worker told = deed at h
  cases h with
  | @ask _ q' h =>
    cases hdeed
    exact ⟨q', h, rfl⟩
  | add | giveBack | fail | forget | close => cases hdeed

/-! ## The queue -/

/-- The dirty keys are those that came in and were not handed out since. -/
theorem Run.mem_dirty (h : Run past q) (hc : .closed ∉ past) :
    key ∈ q.dirty ↔ Awaited key past := by
  induction h with
  | new => exact ⟨fun hm => (nomatch hm), False.elim⟩
  | @add past q h k ih =>
    have hopen : .closed ∉ past := fun hm => hc (List.mem_cons_of_mem _ hm)
    rw [(h.kept.sound hopen).mem_dirty_offer, ih hopen, Awaited, eq_comm]
  | @ask past q h w ih =>
    have hopen : .closed ∉ past := fun hm => hc (List.mem_cons_of_mem _ hm)
    rcases (h.kept.sound hopen).take_cases with ht | ⟨k, rest, -, ht⟩
    · rw [ht]
      exact ih hopen
    · rw [ht, mem_unmark, ih hopen, Awaited, and_comm, ne_comm]
  | @giveBack past q w k h hk ih =>
    rw [finish_dirty]
    exact ih fun hm => hc (List.mem_cons_of_mem _ hm)
  | fail h k ih | forget h k ih => exact ih fun hm => hc (List.mem_cons_of_mem _ hm)
  | close => exact absurd List.mem_cons_self hc

/-- Whoever gets a key gets one that is awaited. -/
theorem Run.awaited_of_take (h : Run past q) (ht : q.take.1 = .key key) : Awaited key past := by
  have hopen : .closed ∉ past := by
    intro hm
    simp [take, h.kept.closed hm] at ht
  have hsound := h.kept.sound hopen
  refine (h.mem_dirty hopen).1 (hsound.dirty_of_queued ?_)
  unfold take at ht
  rw [if_neg (by simp [hsound.isOpen])] at ht
  split at ht
  next => cases ht
  next k rest hq =>
    cases ht
    exact hq ▸ List.mem_cons_self

/-- After a key came in it is handed out, or until then it is dirty, and queued or with a worker who
puts it into the queue on giving it back. And whenever a key is handed out, it came in since it was
handed out before. -/
theorem delivered_of_run (h : Run past q) (key : Key) :
    (.closed ∉ past → ∀ later earlier, past = later ++ .added key :: earlier →
      (∃ worker, .asked worker (.key key) ∈ later) ∨
      key ∈ q.dirty ∧ (key ∈ q.queue ∨
        (∃ worker, (worker, key) ∈ held past) ∧ key ∈ (q.finish key).2.queue)) ∧
    ∀ later earlier worker, past = later ++ .asked worker (.key key) :: earlier →
      ∃ since before, earlier = since ++ .added key :: before ∧
        ∀ w, .asked w (.key key) ∉ since := by
  constructor
  · rintro hc later earlier rfl
    rw [or_iff_not_imp_left]
    intro hout
    have hadded : Awaited key (.added key :: earlier) := .inl rfl
    have hd := (h.mem_dirty hc).2 (hadded.append fun w hm => hout ⟨w, hm⟩)
    have hsound := h.kept.sound hc
    refine ⟨hd, (hsound.queued_of_dirty hd).imp_right fun hp => ⟨?_, ?_⟩⟩
    · exact (h.kept.processing key).1 hp
    · exact hsound.mem_queue_finish.2 (.inr ⟨rfl, hd⟩)
  · rintro later earlier worker rfl
    obtain ⟨q₁, h₁⟩ := h.earlier
    obtain ⟨q₀, h₀, ht⟩ := h₁.asked
    exact (h₀.awaited_of_take ht).added

/-- A key comes in while a worker has it: it is queued when that worker gives it back, and handed
out once more. -/
theorem delivered_of_added_meanwhile :
    let a : Key := ⟨"ns", "a"⟩
    let q := ((new.offer a).2.take.2.offer a).2
    let past : List Deed := [.added a, .asked 1 (.key a), .added a]
    Run past q ∧ a ∉ q.queue ∧ a ∈ (q.finish a).2.queue ∧
      Run (.asked 2 (.key a) :: .gaveBack 1 a :: past) (q.finish a).2.take.2 ∧
      ∃ since before, .gaveBack 1 a :: past = since ++ .added a :: before ∧
        ∀ w, .asked w (.key a) ∉ since := by
  intro a q past
  have h : Run past q := .add (.ask (.add .new a) 1) a
  have hfree : a ∉ q.queue := by decide
  have hback : Run (.gaveBack 1 a :: past) (q.finish a).2 := .giveBack h (by decide)
  have hafter : Run (.asked 2 (.key a) :: .gaveBack 1 a :: past) (q.finish a).2.take.2 :=
    hback.ask 2
  refine ⟨h, hfree, ?_, hafter, (delivered_of_run hafter a).2 [] _ 2 rfl⟩
  rcases (delivered_of_run h a).1 (by simp [past]) [] _ rfl with ⟨w, hm⟩ | ⟨-, hq | ⟨-, hqueued⟩⟩
  · cases hm
  · exact absurd hq hfree
  · exact hqueued

end ClusterLink.WorkQueue
