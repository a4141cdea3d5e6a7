import ClusterLink.Queue.Basic

/-! The order in the work queue. A key that came in is queued, or it waits until its worker gives it
back; no key is queued twice, and none that a worker holds. -/

namespace ClusterLink.WorkQueue

theorem mem_mark {key x : Key} {keys : List Key} : x ∈ mark key keys ↔ x = key ∨ x ∈ keys := by
  unfold mark
  split
  next h =>
    refine ⟨.inr, fun hx => ?_⟩
    rcases hx with rfl | hx
    · exact List.contains_iff_mem.1 h
    · exact hx
  next => exact List.mem_cons

theorem mem_unmark {key x : Key} {keys : List Key} :
    x ∈ unmark key keys ↔ x ∈ keys ∧ x ≠ key := by
  simp [unmark]

theorem nodup_append_single {key : Key} {keys : List Key} (h : keys.Nodup) (hk : key ∉ keys) :
    (keys ++ [key]).Nodup := by
  refine List.nodup_append.2 ⟨h, by simp, fun x hx y hy => ?_⟩
  rw [List.mem_singleton.1 hy]
  rintro rfl
  exact hk hx

/-- No key that came in is forgotten or handed out twice. -/
structure Sound (q : WorkQueue) : Prop where
  isOpen : q.shuttingDown = false
  nodup : q.queue.Nodup
  dirty_of_queued : ∀ ⦃key⦄, key ∈ q.queue → key ∈ q.dirty
  free_of_queued : ∀ ⦃key⦄, key ∈ q.queue → key ∉ q.processing
  queued_of_dirty : ∀ ⦃key⦄, key ∈ q.dirty → key ∈ q.queue ∨ key ∈ q.processing

theorem Sound.new : new.Sound := by
  constructor <;> simp [WorkQueue.new]

variable {q : WorkQueue}

/-! ## Taking a key in -/

/-- A key goes behind all others or stays out. -/
theorem offer_queue (q : WorkQueue) (key : Key) :
    (q.offer key).2.queue = if (q.offer key).1 then q.queue ++ [key] else q.queue := by
  unfold offer
  split
  next => rfl
  next => dsimp only; split <;> rfl

theorem offer_shuttingDown (q : WorkQueue) (key : Key) :
    (q.offer key).2.shuttingDown = q.shuttingDown := by
  unfold offer
  split
  next => rfl
  next => dsimp only; split <;> rfl

theorem offer_failures (q : WorkQueue) (key : Key) : (q.offer key).2.failures = q.failures := by
  unfold offer
  split
  next => rfl
  next => dsimp only; split <;> rfl

theorem offer_processing (q : WorkQueue) (key : Key) :
    (q.offer key).2.processing = q.processing := by
  unfold offer
  split
  next => rfl
  next => dsimp only; split <;> rfl

theorem Sound.mem_dirty_offer (h : q.Sound) {key x : Key} :
    x ∈ (q.offer key).2.dirty ↔ x = key ∨ x ∈ q.dirty := by
  unfold offer
  split
  next hd =>
    have hkey : key ∈ q.dirty := by simpa [h.isOpen] using hd
    refine ⟨.inr, fun hx => ?_⟩
    rcases hx with rfl | hx
    · exact hkey
    · exact hx
  next => dsimp only; split <;> exact mem_mark

/-- A key is queued if it neither waits already nor is held. -/
theorem Sound.mem_queue_offer (h : q.Sound) {key x : Key} : x ∈ (q.offer key).2.queue ↔
    x ∈ q.queue ∨ x = key ∧ key ∉ q.dirty ∧ key ∉ q.processing := by
  unfold offer
  split
  next hd =>
    have hkey : key ∈ q.dirty := by simpa [h.isOpen] using hd
    exact ⟨.inl, fun hx => hx.elim id fun hx => absurd hkey hx.2.1⟩
  next hd =>
    have hkey : key ∉ q.dirty := by simpa [h.isOpen] using hd
    dsimp only
    split
    next hp =>
      have hp : key ∈ q.processing := List.contains_iff_mem.1 hp
      exact ⟨.inl, fun hx => hx.elim id fun hx => absurd hp hx.2.2⟩
    next hp =>
      have hp : key ∉ q.processing := fun hm => hp (List.contains_iff_mem.2 hm)
      simp [hkey, hp]

theorem Sound.offer (h : q.Sound) (key : Key) : (q.offer key).2.Sound := by
  unfold WorkQueue.offer
  split
  next => exact h
  next hd =>
    have hkey : key ∉ q.dirty := by simpa [h.isOpen] using hd
    dsimp only
    split
    next hp =>
      refine ⟨h.isOpen, h.nodup, fun x hx => ?_, h.free_of_queued, fun x hx => ?_⟩
      · exact mem_mark.2 (.inr (h.dirty_of_queued hx))
      · rcases mem_mark.1 hx with rfl | hx
        · exact .inr (List.contains_iff_mem.1 hp)
        · exact h.queued_of_dirty hx
    next hp =>
      have hq : key ∉ q.queue := fun hx => hkey (h.dirty_of_queued hx)
      refine ⟨h.isOpen, nodup_append_single h.nodup hq, fun x hx => ?_, fun x hx => ?_,
        fun x hx => ?_⟩
      · rcases List.mem_append.1 hx with hx | hx
        · exact mem_mark.2 (.inr (h.dirty_of_queued hx))
        · exact mem_mark.2 (.inl (List.mem_singleton.1 hx))
      · rcases List.mem_append.1 hx with hx | hx
        · exact h.free_of_queued hx
        · rw [List.mem_singleton.1 hx]
          simpa using hp
      · rcases mem_mark.1 hx with rfl | hx
        · exact .inl (by simp)
        · exact (h.queued_of_dirty hx).imp_left fun hx => List.mem_append_left _ hx

/-! ## Handing a key out -/

/-- What one who asks for a key is told, and what is queued then. -/
theorem take_queue (q : WorkQueue) :
    (q.shuttingDown = true ∧ q.take = (.shutDown, q)) ∨
      (q.shuttingDown = false ∧ q.queue = [] ∧ q.take = (.empty, q)) ∨
      ∃ key, q.shuttingDown = false ∧ q.take.1 = .key key ∧
        q.take.2.shuttingDown = false ∧ q.queue = key :: q.take.2.queue := by
  unfold take
  split
  next h => exact .inl ⟨h, rfl⟩
  next h =>
    have h : q.shuttingDown = false := by simpa using h
    split
    next hq => exact .inr (.inl ⟨h, hq, rfl⟩)
    next key rest hq => exact .inr (.inr ⟨key, h, rfl, h, hq⟩)

theorem take_failures (q : WorkQueue) : q.take.2.failures = q.failures := by
  unfold take
  split
  next => rfl
  next => split <;> rfl

/-- What one who asks for a key gets while the queue is open. -/
theorem Sound.take_cases (h : q.Sound) : q.take = (.empty, q) ∨
    ∃ key rest, key ∉ q.processing ∧ q.take = (.key key, { q with
      queue := rest
      dirty := unmark key q.dirty
      processing := mark key q.processing }) := by
  unfold take
  rw [if_neg (by simp [h.isOpen])]
  split
  next => exact .inl rfl
  next key rest hq =>
    exact .inr ⟨key, rest, h.free_of_queued (hq ▸ List.mem_cons_self), rfl⟩

theorem Sound.take (h : q.Sound) : q.take.2.Sound := by
  unfold WorkQueue.take
  rw [if_neg (by simp [h.isOpen])]
  split
  next => exact h
  next key rest hq =>
    have hnodup := hq ▸ h.nodup
    have hne : ∀ x ∈ rest, x ≠ key := fun x hx e => (List.nodup_cons.1 hnodup).1 (e ▸ hx)
    have old : ∀ x ∈ rest, x ∈ q.queue := fun x hx => hq ▸ List.mem_cons_of_mem _ hx
    refine ⟨h.isOpen, (List.nodup_cons.1 hnodup).2, fun x hx => ?_, fun x hx => ?_, fun x hx => ?_⟩
    · exact mem_unmark.2 ⟨h.dirty_of_queued (old x hx), hne x hx⟩
    · intro hp
      rcases mem_mark.1 hp with e | hp
      · exact hne x hx e
      · exact h.free_of_queued (old x hx) hp
    · obtain ⟨hx, hne⟩ := mem_unmark.1 hx
      rcases h.queued_of_dirty hx with hx | hx
      · rw [hq] at hx
        exact .inl ((List.mem_cons.1 hx).resolve_left hne)
      · exact .inr (mem_mark.2 (.inr hx))

/-! ## Taking a key back -/

theorem finish_queue (q : WorkQueue) (key : Key) :
    (q.finish key).2.queue = if (q.finish key).1 then q.queue ++ [key] else q.queue := by
  unfold finish
  dsimp only
  split <;> rfl

theorem finish_shuttingDown (q : WorkQueue) (key : Key) :
    (q.finish key).2.shuttingDown = q.shuttingDown := by
  unfold finish
  dsimp only
  split <;> rfl

theorem finish_failures (q : WorkQueue) (key : Key) : (q.finish key).2.failures = q.failures := by
  unfold finish
  dsimp only
  split <;> rfl

theorem finish_dirty (q : WorkQueue) (key : Key) : (q.finish key).2.dirty = q.dirty := by
  unfold finish
  dsimp only
  split <;> rfl

theorem finish_processing (q : WorkQueue) (key : Key) :
    (q.finish key).2.processing = unmark key q.processing := by
  unfold finish
  dsimp only
  split <;> rfl

/-- A key is queued again if it came in meanwhile. -/
theorem Sound.mem_queue_finish (h : q.Sound) {key x : Key} : x ∈ (q.finish key).2.queue ↔
    x ∈ q.queue ∨ x = key ∧ key ∈ q.dirty := by
  unfold finish
  dsimp only
  split
  next hd =>
    have hd : key ∈ q.dirty := by simpa [h.isOpen] using hd
    simp [hd]
  next hd =>
    have hd : key ∉ q.dirty := by simpa [h.isOpen] using hd
    simp [hd]

theorem Sound.finish (h : q.Sound) {key : Key} (hkey : key ∈ q.processing) :
    (q.finish key).2.Sound := by
  have hq : key ∉ q.queue := fun hx => h.free_of_queued hx hkey
  unfold WorkQueue.finish
  dsimp only
  split
  next hd =>
    have hd : key ∈ q.dirty := by simpa [h.isOpen] using hd
    refine ⟨h.isOpen, nodup_append_single h.nodup hq, fun x hx => ?_, fun x hx => ?_,
      fun x hx => ?_⟩
    · rcases List.mem_append.1 hx with hx | hx
      · exact h.dirty_of_queued hx
      · exact List.mem_singleton.1 hx ▸ hd
    · intro hp
      obtain ⟨hp, hne⟩ := mem_unmark.1 hp
      rcases List.mem_append.1 hx with hx | hx
      · exact h.free_of_queued hx hp
      · exact hne (List.mem_singleton.1 hx)
    · by_cases e : x = key
      · exact .inl (e ▸ by simp)
      · rcases h.queued_of_dirty hx with hx | hx
        · exact .inl (List.mem_append_left _ hx)
        · exact .inr (mem_unmark.2 ⟨hx, e⟩)
  next hd =>
    have hd : key ∉ q.dirty := by simpa [h.isOpen] using hd
    refine ⟨h.isOpen, h.nodup, h.dirty_of_queued, fun x hx hp => ?_, fun x hx => ?_⟩
    · exact h.free_of_queued hx (mem_unmark.1 hp).1
    · rcases h.queued_of_dirty hx with hq | hp
      · exact .inl hq
      · exact .inr (mem_unmark.2 ⟨hp, fun e => hd (e ▸ hx)⟩)

/-! ## Without handing out -/

/-- No key is handed out or taken back between two states of the queue. -/
structure Fed (q q' : WorkQueue) : Prop where
  sound : q'.Sound
  dirty : ∀ ⦃key⦄, key ∈ q.dirty → key ∈ q'.dirty
  processing : q'.processing = q.processing

theorem Sound.fed (h : q.Sound) : q.Fed q := ⟨h, fun _ hk => hk, rfl⟩

theorem Sound.fed_offer (h : q.Sound) (key : Key) : q.Fed (q.offer key).2 :=
  ⟨h.offer key, fun _ hk => h.mem_dirty_offer.2 (.inr hk), q.offer_processing key⟩

theorem Sound.fed_countFailure (h : q.Sound) (key : Key) : q.Fed (q.countFailure key).2 :=
  ⟨⟨h.isOpen, h.nodup, h.dirty_of_queued, h.free_of_queued, h.queued_of_dirty⟩,
    fun _ hk => hk, rfl⟩

theorem Sound.fed_forget (h : q.Sound) (key : Key) : q.Fed (q.forget key) :=
  ⟨⟨h.isOpen, h.nodup, h.dirty_of_queued, h.free_of_queued, h.queued_of_dirty⟩,
    fun _ hk => hk, rfl⟩

end ClusterLink.WorkQueue
