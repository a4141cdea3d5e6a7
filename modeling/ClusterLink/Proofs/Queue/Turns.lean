import ClusterLink.Proofs.Queue.Custody

/-! The order in which keys are handed out. What was queued at some moment and what entered the queue
since is what was handed out since and what is queued now, in that order (`Run.exists_entered`). As
no key is queued twice, a key that is put into the queue waits for the keys ahead of it, for each of
them once, and for no other (`InTurn`). -/

namespace ClusterLink.WorkQueue

/-- The keys that were handed out, the first one first. -/
def handedOut : List Deed → List Key
  | [] => []
  | .asked _ (.key key) :: past => handedOut past ++ [key]
  | _ :: past => handedOut past

/-- What a deed makes of the queue. -/
def Deed.act : Deed → WorkQueue → WorkQueue
  | .added key, q => (q.offer key).2
  | .asked .., q => q.take.2
  | .gaveBack _ key, q => (q.finish key).2
  | .failed key, q => (q.countFailure key).2
  | .forgot key, q => q.forget key
  | .closed, q => q.shutDown

/-- Of the keys that were handed out since a key was put into the queue, those before it are the
keys that were ahead of it. -/
structure InTurn (ahead : List Key) (key : Key) (outs : List Key) : Prop where
  /-- Until the key is handed out, no other is handed out twice. -/
  once : ∀ before since, outs = before ++ since → key ∉ before → before.Nodup
  /-- The key is handed out right after the keys that were ahead of it. -/
  turn : ∀ before since, outs = before ++ key :: since → key ∉ before → before = ahead
  /-- Once more keys were handed out than were ahead of it, it is one of them. -/
  soon : ahead.length < outs.length → key ∈ outs

variable {past later : List Deed} {deed : Deed} {q q₀ q₁ : WorkQueue} {key : Key}
  {ahead entered outs rest : List Key}

/-! ## One deed -/

theorem offer_queue_cases (q : WorkQueue) (key : Key) :
    (q.offer key).2.queue = q.queue ∨ (q.offer key).2.queue = q.queue ++ [key] := by
  rw [q.offer_queue key]
  split
  next => exact .inr rfl
  next => exact .inl rfl

theorem finish_queue_cases (q : WorkQueue) (key : Key) :
    (q.finish key).2.queue = q.queue ∨ (q.finish key).2.queue = q.queue ++ [key] := by
  rw [q.finish_queue key]
  split
  next => exact .inr rfl
  next => exact .inl rfl

/-- Whoever asks is handed the first key, if any. -/
theorem queue_eq_handedOut (q : WorkQueue) (worker : Nat) :
    q.queue = handedOut [.asked worker q.take.1] ++ q.take.2.queue := by
  rcases q.take_queue with ⟨-, ht⟩ | ⟨-, -, ht⟩ | ⟨key, -, ht, -, hq⟩
  · rw [ht]
    rfl
  · rw [ht]
    rfl
  · rw [ht]
    exact hq

theorem handedOut_append (later past : List Deed) :
    handedOut (later ++ past) = handedOut past ++ handedOut later := by
  induction later with
  | nil => exact (List.append_nil _).symm
  | cons deed later ih =>
    cases deed with
    | asked worker told =>
      cases told with
      | key key => simp only [List.cons_append, handedOut, ih, List.append_assoc]
      | shutDown | empty => exact ih
    | added | gaveBack | failed | forgot | closed => exact ih

/-! ## Runs -/

/-- The record fixes the queue. -/
theorem Run.eq_foldr (h : Run past q) : q = past.foldr Deed.act WorkQueue.new := by
  induction h with
  | new => rfl
  | add _ key ih => exact congrArg (Deed.act (.added key)) ih
  | ask _ worker ih => exact congrArg (Deed.act (.asked worker _)) ih
  | @giveBack _ _ worker key _ _ ih => exact congrArg (Deed.act (.gaveBack worker key)) ih
  | fail _ key ih => exact congrArg (Deed.act (.failed key)) ih
  | forget _ key ih => exact congrArg (Deed.act (.forgot key)) ih
  | close _ ih => exact congrArg (Deed.act .closed) ih

theorem Run.unique (h : Run past q) (h' : Run past q₀) : q = q₀ :=
  h.eq_foldr.trans h'.eq_foldr.symm

/-- What was queued and what entered since is what was handed out since and what is queued. -/
theorem Run.exists_entered (h₀ : Run past q₀) (h : Run (later ++ past) q) :
    ∃ entered, q₀.queue ++ entered = handedOut later ++ q.queue := by
  induction later generalizing q with
  | nil =>
    have heq : q = q₀ := h.unique h₀
    exact ⟨[], by rw [heq, List.append_nil, handedOut, List.nil_append]⟩
  | cons deed later ih =>
    cases h with
    | @add _ q h key =>
      obtain ⟨entered, he⟩ := ih h
      rcases q.offer_queue_cases key with hq | hq
      · exact ⟨entered, hq ▸ he⟩
      · exact ⟨entered ++ [key], by rw [hq, ← List.append_assoc, he, List.append_assoc]; rfl⟩
    | @giveBack _ q worker key h =>
      obtain ⟨entered, he⟩ := ih h
      rcases q.finish_queue_cases key with hq | hq
      · exact ⟨entered, hq ▸ he⟩
      · exact ⟨entered ++ [key], by rw [hq, ← List.append_assoc, he, List.append_assoc]; rfl⟩
    | @ask _ q h worker =>
      obtain ⟨entered, he⟩ := ih h
      refine ⟨entered, ?_⟩
      have hcons : handedOut (.asked worker q.take.1 :: later) =
          handedOut later ++ handedOut [.asked worker q.take.1] := handedOut_append [_] later
      rw [he, hcons, List.append_assoc, ← q.queue_eq_handedOut]
    | fail h | forget h | close h =>
      obtain ⟨entered, he⟩ := ih h
      exact ⟨entered, he⟩

/-- A deed that puts a key into the queue puts it behind all others, and is one of two. -/
theorem Run.entered_last (h₀ : Run past q₀) (h₁ : Run (deed :: past) q₁) (hout : key ∉ q₀.queue)
    (hin : key ∈ q₁.queue) :
    (deed = .added key ∨ ∃ worker, deed = .gaveBack worker key) ∧ q₁.queue = q₀.queue ++ [key] := by
  have last {k : Key} (hq : q₁.queue = q₀.queue ∨ q₁.queue = q₀.queue ++ [k]) :
      k = key ∧ q₁.queue = q₀.queue ++ [key] := by
    rcases hq with hq | hq
    · exact absurd (hq ▸ hin) hout
    · rw [hq] at hin
      obtain rfl := List.mem_singleton.1 ((List.mem_append.1 hin).resolve_left hout)
      exact ⟨rfl, hq⟩
  cases h₁ with
  | @add _ q h k =>
    obtain rfl := h.unique h₀
    obtain ⟨rfl, hq⟩ := last (q.offer_queue_cases k)
    exact ⟨.inl rfl, hq⟩
  | @giveBack _ q worker k h =>
    obtain rfl := h.unique h₀
    obtain ⟨rfl, hq⟩ := last (q.finish_queue_cases k)
    exact ⟨.inr ⟨worker, rfl⟩, hq⟩
  | @ask _ q h worker =>
    obtain rfl := h.unique h₀
    exact absurd (q.queue_eq_handedOut worker ▸ List.mem_append_right _ hin) hout
  | @fail _ q h | @forget _ q h | @close _ q h =>
    obtain rfl := h.unique h₀
    exact absurd hin hout

/-- A key that came in again while it is held goes behind all others when it is given back. -/
theorem Run.finish_of_deferred (h : Run past q) (hopen : .closed ∉ past) {worker : Nat}
    (hk : (worker, key) ∈ held past) (hd : Deferred key past) :
    key ∉ q.queue ∧ (q.finish key).2.queue = q.queue ++ [key] := by
  have hkept := h.kept
  have hdirty : key ∈ q.dirty := (hkept.dirty hopen key).2 (.inr hd)
  have hproc : key ∈ q.processing := (hkept.processing key).2 ⟨worker, hk⟩
  refine ⟨fun hq => hkept.free hq hproc, ?_⟩
  unfold finish
  exact congrArg (fun r : Bool × WorkQueue => r.2.queue)
    (if_pos (by simp [hdirty, (hkept.sound hopen).isOpen]))

/-! ## Turns -/

/-- Hand-outs that do not come to a key do not get past the keys ahead of it. -/
theorem prefix_of_not_mem (h : outs <+: ahead ++ key :: entered) (hk : key ∉ outs) :
    outs <+: ahead := by
  rcases List.prefix_or_prefix_of_prefix h (List.prefix_append ..) with h' | ⟨t, rfl⟩
  · exact h'
  · cases t with
    | nil => exact ⟨[], by simp⟩
    | cons x t =>
      obtain ⟨rest, hrest⟩ := h
      rw [List.append_assoc, List.cons_append] at hrest
      obtain rfl : x = key := (List.cons.inj (List.append_cancel_left hrest)).1
      exact absurd (List.mem_append_right _ List.mem_cons_self) hk

theorem InTurn.of_append (h : ahead ++ key :: entered = outs ++ rest) (hnodup : ahead.Nodup)
    (hk : key ∉ ahead) : InTurn ahead key outs where
  once before since hb hnot := by
    have hpre : before <+: ahead ++ key :: entered :=
      ⟨since ++ rest, by rw [h, hb, List.append_assoc]⟩
    exact hnodup.sublist (prefix_of_not_mem hpre hnot).sublist
  turn before since hb hnot := by
    have hpre : before <+: ahead ++ key :: entered :=
      ⟨key :: since ++ rest, by rw [h, hb, List.append_assoc]⟩
    obtain ⟨t, rfl⟩ := prefix_of_not_mem hpre hnot
    cases t with
    | nil => exact (List.append_nil _).symm
    | cons x t =>
      rw [hb, List.append_assoc, List.append_assoc] at h
      obtain rfl : x = key := (List.cons.inj (List.append_cancel_left h)).1
      exact absurd (List.mem_append_right _ List.mem_cons_self) hk
  soon hlt := by
    by_contra hnot
    have hpre : outs <+: ahead ++ key :: entered := ⟨rest, h.symm⟩
    exact Nat.not_le.2 hlt (prefix_of_not_mem hpre hnot).length_le

/-- Whatever puts a key into the queue puts it behind all that are queued, and then the keys ahead
of it are handed out, each once, and the key next. A key that comes in again while a worker has it
is put there when he gives it back. -/
theorem handed_out_in_turn (h₀ : Run past q₀) (key : Key) :
    (∀ deed q₁, Run (deed :: past) q₁ → key ∉ q₀.queue → key ∈ q₁.queue →
      (deed = .added key ∨ ∃ worker, deed = .gaveBack worker key) ∧
      q₁.queue = q₀.queue ++ [key] ∧
      ∀ later q, Run (later ++ deed :: past) q → InTurn q₀.queue key (handedOut later)) ∧
    (.closed ∉ past → Deferred key past → ∀ worker, (worker, key) ∈ held past →
      key ∉ q₀.queue ∧ (q₀.finish key).2.queue = q₀.queue ++ [key]) := by
  constructor
  · intro deed q₁ h₁ hout hin
    obtain ⟨hdeed, hq⟩ := h₀.entered_last h₁ hout hin
    refine ⟨hdeed, hq, fun later q h => ?_⟩
    obtain ⟨entered, he⟩ := h₁.exists_entered h
    rw [hq, List.append_assoc, List.singleton_append] at he
    exact .of_append he h₀.kept.nodup hout
  · intro hopen hd worker hk
    exact h₀.finish_of_deferred hopen hk hd

/-- A key comes in again while a worker has it and another key is queued: that one is handed out
first, and once, though it comes in again as well. -/
theorem handed_out_in_turn_of_added_meanwhile :
    let a : Key := ⟨"ns", "a"⟩
    let b : Key := ⟨"ns", "b"⟩
    let past : List Deed := [.added a, .added b, .asked 1 (.key a), .added a]
    let later : List Deed := [.asked 1 (.key a), .added b, .asked 2 (.key b)]
    ∃ q₀ q, Run past q₀ ∧ a ∉ q₀.queue ∧ Deferred a past ∧ a ∈ (q₀.finish a).2.queue ∧
      Run (later ++ .gaveBack 1 a :: past) q ∧ handedOut later = [b, a] ∧
      InTurn [b] a (handedOut later) ∧ (q₀.finish a).2.queue = q₀.queue ++ [a] := by
  intro a b past later
  let q₀ := (((new.offer a).2.take.2.offer b).2.offer a).2
  let q₁ := (q₀.finish a).2
  have h₀ : Run past q₀ := .add (.add (.ask (.add .new a) 1) b) a
  have h₁ : Run (.gaveBack 1 a :: past) q₁ := .giveBack h₀ (by decide)
  have hb : q₁.take.1 = .key b := by decide
  have h₂ : Run (.asked 2 (.key b) :: .gaveBack 1 a :: past) q₁.take.2 := hb ▸ h₁.ask 2
  have ha : (q₁.take.2.offer b).2.take.1 = .key a := by decide
  have h₃ := (h₂.add b).ask 1
  rw [ha] at h₃
  have h : Run (later ++ .gaveBack 1 a :: past) (q₁.take.2.offer b).2.take.2 := h₃
  have hheld : (1, a) ∈ held [.added b, .asked 1 (.key a), .added a] := by decide
  have hd : Deferred a past := .of_added hheld
  have hout : a ∉ q₀.queue := by decide
  have hin : a ∈ (q₀.finish a).2.queue := by decide
  obtain ⟨-, -, hturn⟩ := (handed_out_in_turn h₀ a).1 _ _ h₁ hout hin
  obtain ⟨-, hlast⟩ := (handed_out_in_turn h₀ a).2 (by simp [past]) hd 1 (by decide)
  exact ⟨q₀, _, h₀, hout, hd, hin, h, by decide, hturn later _ h, hlast⟩

end ClusterLink.WorkQueue
