import ClusterLink.Proofs.Simulation.Backing
import Mathlib.Data.List.Perm.Subperm

/-! Delayed adds. Each is started by a task that was handed the key, for that key, and by the task
only once for every hand-out; it adds its key once at the most, and not before its delay is over.
So the delayed adds of a key that are outstanding and those that fired are together no more than
the times the key was handed out, and those outstanding no more than the hand-outs that had another
cause. They can be several: what a reconcile writes queues its key again while the delayed add of
that reconcile still waits. -/

namespace ClusterLink

namespace Exchange

variable {x : Exchange} {key : Key}

theorem handed?_cases (h : x.handed? = some key) : ∃ task, x = ⟨task, .take, .key key⟩ := by
  unfold handed? at h
  split at h
  next =>
    cases h
    exact ⟨_, rfl⟩
  next => cases h

theorem delayed?_cases (h : x.delayed? = some key) :
    ∃ task delay, x = ⟨task, .addLater key delay, ()⟩ := by
  unfold delayed? at h
  split at h
  next =>
    cases h
    exact ⟨_, _, rfl⟩
  next => cases h

end Exchange

namespace Moment

/-- The delayed add of a key that was started, by the number of its task: the next one then. -/
def delayedAdd? (key : Key) (m : Moment) : Option TaskId :=
  if m.exchange?.bind Exchange.delayed? = some key then some m.world.nextId else none

/-- The key that a task added. -/
def addedBy? (id : TaskId) (m : Moment) : Option Key :=
  m.exchange?.bind fun x => if x.task = id then x.added? else none

/-- The task that added a key. -/
def adder? (key : Key) (m : Moment) : Option TaskId :=
  m.exchange?.bind fun x => if x.added? = some key then some x.task else none

end Moment

namespace World

/-- The delayed adds of a key that were started, the latest first. -/
def delayedAdds (key : Key) (past : List Moment) : List TaskId :=
  past.filterMap (Moment.delayedAdd? key)

/-- How many times a task added a key. -/
def addCount (id : TaskId) (past : List Moment) : Nat :=
  past.countP fun m => (m.addedBy? id).isSome

/-- The delayed adds of a key that have not fired. -/
def outstanding (key : Key) (past : List Moment) : List TaskId :=
  (delayedAdds key past).filter fun id => addCount id past = 0

/-- The delayed adds of a key that fired, each as often as it did. -/
def fired (key : Key) (past : List Moment) : List TaskId :=
  (past.filterMap (Moment.adder? key)).filter (· ∈ delayedAdds key past)

/-- How many times a key was handed out. -/
def handOuts (key : Key) (past : List Moment) : Nat :=
  past.countP fun m => m.exchange?.bind Exchange.handed? = some key

/-- The task that was the first to add a key after it was handed out last. -/
def firstAdder? (key : Key) : List Moment → Option TaskId
  | [] => none
  | m :: past =>
    if m.exchange?.bind Exchange.handed? = some key then none
    else (firstAdder? key past).or (m.adder? key)

/-- The causes of the hand-outs of a key: for each the task that was the first to add the key after
the hand-out before. While the key is in the queue already, adding it does nothing. -/
def causes (key : Key) : List Moment → List TaskId
  | [] => []
  | m :: past =>
    if m.exchange?.bind Exchange.handed? = some key then
      (firstAdder? key past).toList ++ causes key past
    else causes key past

/-- The hand-outs of a key that a delayed add caused. -/
def timedHandOuts (key : Key) (past : List Moment) : Nat :=
  (causes key past).countP (· ∈ delayedAdds key past)

variable {past : List Moment} {w w' w₁ : World} {id : TaskId} {t u : Task} {r : Request}
  {answer : r.Answer} {key : Key} {x : Exchange} {due clock : Nat}

/-! ## Hand-outs -/

/-- Where an entitled task was handed the key. -/
theorem handed_of_entitled (h : id ∈ entitled key past) : ∃ since m before,
    past = since ++ m :: before ∧ m.exchange? = some ⟨id, .take, .key key⟩ ∧
      ∀ n ∈ since, ∀ k delay, n.exchange? ≠ some ⟨id, .addLater k delay, ()⟩ := by
  induction past with
  | nil => cases h
  | cons m past ih =>
    have skip (hp : id ∈ entitled key past)
        (hm : ∀ k delay, m.exchange? ≠ some ⟨id, .addLater k delay, ()⟩) :
        ∃ since n before, m :: past = since ++ n :: before ∧
          n.exchange? = some ⟨id, .take, .key key⟩ ∧
          ∀ o ∈ since, ∀ k delay, o.exchange? ≠ some ⟨id, .addLater k delay, ()⟩ := by
      obtain ⟨since, n, before, rfl, hn, hsince⟩ := ih hp
      refine ⟨m :: since, n, before, rfl, hn, fun o ho => ?_⟩
      rcases List.mem_cons.1 ho with rfl | ho
      · exact hm
      · exact hsince o ho
    obtain ⟨w, x?⟩ := m
    cases x? with
    | none => exact skip h fun _ _ e => nomatch e
    | some x =>
      rw [entitled_cons] at h
      split at h
      next hx =>
        rcases List.mem_cons.1 h with rfl | h
        · obtain ⟨task, rfl⟩ := Exchange.handed?_cases hx
          exact ⟨[], _, past, rfl, rfl, fun _ hm => nomatch hm⟩
        · refine skip h fun k delay e => ?_
          cases e
          cases hx
      next =>
        split at h
        next =>
          obtain ⟨h, hne⟩ := List.mem_filter.1 h
          refine skip h fun k delay e => ?_
          cases e
          exact bne_iff_ne.1 hne rfl
        next hx =>
          refine skip h fun k delay e => ?_
          cases e
          exact hx rfl

theorem delayedAdds_cons : delayedAdds key (⟨w, some x⟩ :: past) =
    if x.delayed? = some key then w.nextId :: delayedAdds key past else delayedAdds key past := by
  unfold delayedAdds
  split
  next h => exact List.filterMap_cons_some (if_pos h)
  next h => exact List.filterMap_cons_none (if_neg h)

theorem handOuts_cons : handOuts key (⟨w, some x⟩ :: past) =
    handOuts key past + if x.handed? = some key then 1 else 0 := by
  simp [handOuts, List.countP_cons]

/-- A delayed add uses up the hand-out that entitled its task. -/
theorem length_filter_entitled (h : id ∈ entitled key past) :
    ((entitled key past).filter (· != id)).length + 1 ≤ (entitled key past).length :=
  List.length_filter_lt_length_iff_exists.2 ⟨id, h, by simp⟩

/-- There are no more delayed adds than hand-outs. -/
theorem History.delayedAdds_le (h : History past w) (key : Key) :
    (delayedAdds key past).length + (entitled key past).length ≤ handOuts key past := by
  induction past generalizing w with
  | nil => exact Nat.le_refl _
  | cons m past ih =>
    have hpermits : ∀ x, m.exchange? = some x → Permits past x :=
      fun x hx => h.permitted (show m :: past = [] ++ m :: past from rfl) hx
    have ih := ih h.uncons
    obtain ⟨w, _ | x⟩ := m
    · exact ih
    rw [delayedAdds_cons, handOuts_cons, entitled_cons]
    by_cases hh : x.handed? = some key
    · obtain ⟨task, rfl⟩ := Exchange.handed?_cases hh
      rw [if_pos hh, if_pos hh, if_neg nofun]
      exact Nat.succ_le_succ ih
    rw [if_neg hh, if_neg hh]
    by_cases hd : x.delayed? = some key
    · obtain ⟨task, delay, rfl⟩ := Exchange.delayed?_cases hd
      have hmem : task ∈ entitled key past := hpermits _ rfl
      have hlt := length_filter_entitled hmem
      rw [if_pos hd, if_pos (by rw [hd]; rfl)]
      simp only [List.length_cons]
      omega
    · rw [if_neg hd]
      split
      next =>
        have hle : ((entitled key past).filter (· != x.task)).length ≤ _ := List.length_filter_le ..
        omega
      next => exact ih

/-! ## Timers -/

/-- Where the task of a delayed add stands, and how many times it has added its key. -/
inductive Timer (key : Key) (due clock : Nat) : Round → Nat → Prop where
  | waiting : Timer key due clock (Controller.addAt (some due) key) 0
  | ready (h : due ≤ clock) : Timer key due clock (Controller.addAt none key) 0
  | waking {next : Unit → Round} (h : next () = .done (some .quiet)) :
    Timer key due clock (.ask .notifyOne next) 1
  | ended : Timer key due clock (.done (some .quiet)) 1

/-- A task adds nothing but a key, after it was due, and once at the most. -/
structure Timed (past : List Moment) (w : World) (id : TaskId) (key : Key) (due : Nat) : Prop where
  born : id < w.nextId
  adds : ∀ ⦃m⦄, m ∈ past → ∀ k, m.addedBy? id = some k → k = key ∧ due ≤ m.world.clock
  once : addCount id past ≤ 1
  timer : ∀ ⦃t⦄, t ∈ w.tasks → t.id = id → Timer key due w.clock t.work (addCount id past)

theorem Timer.mono {p : Round} {n clock' : Nat} (h : Timer key due clock p n)
    (hc : clock ≤ clock') : Timer key due clock' p n := by
  cases h with
  | waiting => exact .waiting
  | ready hd => exact .ready (Nat.le_trans hd hc)
  | waking h => exact .waking h
  | ended => exact .ended

theorem Timer.le_one {p : Round} {n : Nat} (h : Timer key due clock p n) : n ≤ 1 := by
  cases h <;> omega

/-- The task of a delayed add waits until it is due, adds the key, and ends. -/
theorem Timer.answered {n : Nat} {next : r.Answer → Round}
    (h : Timer key due w.clock (.ask r next) n) (ha : w.attempt id r = some (answer, w₁)) :
    Timer key due w.clock (next answer)
      (n + if (Exchange.added? ⟨id, r, answer⟩).isSome then 1 else 0) ∧
    ∀ k, Exchange.added? ⟨id, r, answer⟩ = some k → k = key ∧ due ≤ w.clock := by
  generalize hp : Program.ask r next = p at h
  cases h with
  | waiting =>
    cases hp
    simp only [attempt] at ha
    split at ha
    next hd =>
      exact ⟨.ready hd, fun k e => by cases e⟩
    next => cases ha
  | ready hd =>
    cases hp
    refine ⟨?_, fun k e => ?_⟩
    · cases answer with
      | false => exact .ended
      | true => exact .waking rfl
    · cases e
      exact ⟨rfl, hd⟩
  | waking h =>
    cases hp
    exact ⟨h ▸ .ended, fun k e => by cases e⟩
  | ended => cases hp

theorem addCount_cons {m : Moment} :
    addCount id (m :: past) = addCount id past + if (m.addedBy? id).isSome then 1 else 0 := by
  simp [addCount, List.countP_cons]

namespace Timed

/-- A step or an interlude in which the task of the delayed add does nothing. -/
theorem of_idle (h : Timed past w id key due) {x? : Option Exchange}
    (hx : ∀ x, x? = some x → x.task ≠ id) (hn : w.nextId ≤ w'.nextId) (hc : w.clock ≤ w'.clock)
    (ht : ∀ u ∈ w'.tasks, u.id = id → u ∈ w.tasks) : Timed (⟨w, x?⟩ :: past) w' id key due := by
  have hnone : Moment.addedBy? id ⟨w, x?⟩ = none := by
    cases x? with
    | none => rfl
    | some x => exact if_neg (hx x rfl)
  have hcount : addCount id (⟨w, x?⟩ :: past) = addCount id past := by
    rw [addCount_cons, hnone]
    rfl
  refine ⟨Nat.lt_of_lt_of_le h.born hn, fun m hm k hk => ?_, hcount ▸ h.once, fun u hu e => ?_⟩
  · rcases List.mem_cons.1 hm with rfl | hm
    · cases hnone.symm.trans hk
    · exact h.adds hm k hk
  · exact hcount ▸ (h.timer (ht u hu e) e).mono hc

theorem answered (h : Timed past w t.id key due) (ho : Ordered past w) (ht : t ∈ w.tasks)
    {next : r.Answer → Round} (hw : t.work = .ask r next)
    (ha : w.attempt t.id r = some (answer, w₁)) :
    Timed (⟨w, some ⟨t.id, r, answer⟩⟩ :: past) (w₁.setWork t.id (next answer)) t.id key due := by
  have htimer := h.timer ht rfl
  rw [hw] at htimer
  obtain ⟨hnext, hadds⟩ := htimer.answered ha
  have hadded : Moment.addedBy? t.id ⟨w, some ⟨t.id, r, answer⟩⟩ =
      Exchange.added? ⟨t.id, r, answer⟩ := if_pos rfl
  have hans := attempt_answered ha
  rw [← hadded, ← addCount_cons] at hnext
  refine ⟨Nat.lt_of_lt_of_le h.born hans.nextId, fun m hm k hk => ?_, hnext.le_one,
    fun u hu e => ?_⟩
  · rcases List.mem_cons.1 hm with rfl | hm
    · exact hadds k (hadded ▸ hk)
    · exact h.adds hm k hk
  · have hc : (w₁.setWork t.id (next answer)).clock = w.clock := hans.clock
    rcases ho.mem_answered ht ha hu with rfl | ⟨-, hne⟩ | ⟨label, round, -, rfl⟩
    · exact hc ▸ hnext
    · exact absurd e hne
    · exact absurd e (Nat.ne_of_gt (ho.tasks ht))

/-- A delayed add that was just started. -/
theorem started (ho : Ordered past w) (ht : t ∈ w.tasks) {delay : Duration} {next : Unit → Round}
    (ha : w.attempt t.id (.addLater key delay) = some ((), w₁)) :
    Timed (⟨w, some ⟨t.id, .addLater key delay, ()⟩⟩ :: past) (w₁.setWork t.id (next ())) w.nextId
      key (w.clock + delay.ceilMillis) := by
  have hnone : ∀ m ∈ (⟨w, some ⟨t.id, .addLater key delay, ()⟩⟩ :: past : List Moment),
      m.addedBy? w.nextId = none := by
    intro m hm
    rcases List.mem_cons.1 hm with rfl | hm
    · exact if_neg (Nat.ne_of_lt (ho.tasks ht))
    · match hx : m.exchange? with
      | none => simp [Moment.addedBy?, hx]
      | some x => simp [Moment.addedBy?, hx, Nat.ne_of_lt (ho.exchanges hm x hx)]
  have hcount : addCount w.nextId (⟨w, some ⟨t.id, .addLater key delay, ()⟩⟩ :: past) = 0 :=
    List.countP_eq_zero.2 fun m hm => by simp [hnone m hm]
  refine ⟨?_, fun m hm k hk => ?_, hcount ▸ Nat.zero_le _, fun u hu e => ?_⟩
  · cases ha
    exact Nat.lt_succ_self _
  · cases (hnone m hm).symm.trans hk
  · rw [hcount]
    have hc : (w₁.setWork t.id (next ())).clock = w.clock := (attempt_answered ha).clock
    have hlt := ho.tasks ht
    rcases ho.mem_answered ht ha hu with rfl | ⟨hu, -⟩ | ⟨label, round, hr, rfl⟩
    · exact absurd e (Nat.ne_of_lt hlt)
    · exact absurd e (Nat.ne_of_lt (ho.tasks hu))
    · cases hr
      by_cases hz : delay.nanos = 0
      · simp only [if_pos hz]
        refine .ready (hc ▸ ?_)
        simp [Duration.ceilMillis, hz]
      · simp only [if_neg hz]
        exact .waiting

end Timed

/-- In every history every delayed add keeps to its key and its time. -/
theorem History.timed (h : History past w) : ∀ m ∈ past, ∀ task key delay,
    m.exchange? = some ⟨task, .addLater key delay, ()⟩ →
      Timed past w m.world.nextId key (m.world.clock + delay.ceilMillis) := by
  refine h.invariant (I := fun past w => ∀ m ∈ past, ∀ task key delay,
    m.exchange? = some ⟨task, .addLater key delay, ()⟩ →
      Timed past w m.world.nextId key (m.world.clock + delay.ceilMillis)) ?_ ?_ ?_ ?_ ?_
  · exact fun _ _ _ m hm => nomatch hm
  · intro past w w' h ih hi m hm task key delay hx
    rcases List.mem_cons.1 hm with rfl | hm
    · cases hx
    have hadv := hi.advances h.ordered.keyed
    have htimed := ih m hm task key delay hx
    refine htimed.of_idle (fun _ e => nomatch e) hadv.nextId hadv.clock fun u hu e => ?_
    rcases hi.joins.mem hu with hu | ⟨label, round, -, rfl, -⟩
    · exact hu
    · exact absurd e (Nat.ne_of_gt htimed.born)
  · intro past w t h ih ht hw m hm task key delay hx
    rcases List.mem_cons.1 hm with rfl | hm
    · cases hx
    have htimed := ih m hm task key delay hx
    have hn : w.nextId ≤ (w.setWork t.id t.round).nextId := Nat.le_refl _
    refine htimed.of_idle (fun _ e => nomatch e) hn (Nat.le_refl _) fun u hu e => ?_
    rcases h.ordered.mem_restarted ht hu with rfl | hu
    -- The task of a delayed add does not start over.
    · have htimer := htimed.timer ht e
      rw [hw] at htimer
      cases htimer
    · exact hu
  · intro past w t ending h ih ht hw m hm task key delay hx
    rcases List.mem_cons.1 hm with rfl | hm
    · cases hx
    have hn : w.nextId ≤ (w.finish t ending).nextId := Nat.le_refl _
    exact (ih m hm task key delay hx).of_idle (fun _ e => nomatch e) hn (Nat.le_refl _)
      fun u hu _ => (List.mem_filter.1 hu).1
  · intro past w t r next answer w₁ h ih ht hw ha m hm task key delay hx
    rcases List.mem_cons.1 hm with rfl | hm
    · cases hx
      exact .started h.ordered ht ha
    have htimed := ih m hm task key delay hx
    by_cases e : t.id = m.world.nextId
    · rw [← e] at htimed ⊢
      exact htimed.answered h.ordered ht hw ha
    · have hans := attempt_answered ha
      have hn : w.nextId ≤ (w₁.setWork t.id (next answer)).nextId := hans.nextId
      have hc : w.clock ≤ (w₁.setWork t.id (next answer)).clock := Nat.le_of_eq hans.clock.symm
      refine htimed.of_idle (fun x hx => by cases hx; exact e) hn hc fun u hu eu => ?_
      rcases h.ordered.mem_answered ht ha hu with rfl | ⟨hu, -⟩ | ⟨label, round, -, rfl⟩
      · exact absurd eu e
      · exact hu
      · exact absurd eu (Nat.ne_of_gt htimed.born)

/-! ## Delayed adds that are outstanding -/

theorem mem_delayedAdds : id ∈ delayedAdds key past ↔ ∃ m ∈ past, ∃ task delay,
    m.exchange? = some ⟨task, .addLater key delay, ()⟩ ∧ m.world.nextId = id := by
  simp only [delayedAdds, List.mem_filterMap, Moment.delayedAdd?]
  constructor
  · rintro ⟨m, hm, hid⟩
    split at hid
    next hd =>
      obtain ⟨x, hx, hd⟩ := Option.bind_eq_some_iff.1 hd
      obtain ⟨task, delay, rfl⟩ := Exchange.delayed?_cases hd
      exact ⟨m, hm, task, delay, hx, Option.some.inj hid⟩
    next => cases hid
  · rintro ⟨m, hm, task, delay, hx, rfl⟩
    exact ⟨m, hm, by simp [hx, Exchange.delayed?]⟩

theorem History.nodup_delayedAdds (h : History past w) (key : Key) :
    (delayedAdds key past).Nodup := by
  induction past generalizing w with
  | nil => exact List.nodup_nil
  | cons m past ih =>
    have h₀ := h.uncons
    obtain ⟨w, _ | x⟩ := m
    · exact ih h₀
    rw [delayedAdds_cons]
    split
    next =>
      refine List.nodup_cons.2 ⟨fun hm => ?_, ih h₀⟩
      obtain ⟨n, hn, task, delay, hx, hid⟩ := mem_delayedAdds.1 hm
      have hborn := (h₀.timed n hn task key delay hx).born
      rw [hid] at hborn
      exact Nat.lt_irrefl _ hborn
    next => exact ih h₀

theorem count_adder?_le (past : List Moment) :
    (past.filterMap (Moment.adder? key)).count id ≤ addCount id past := by
  rw [List.count_filterMap, addCount]
  refine List.countP_mono_left fun m _ hm => ?_
  obtain ⟨x, hx, ha⟩ := Option.bind_eq_some_iff.1 (beq_iff_eq.1 hm)
  split at ha
  next hadd =>
    cases ha
    simp [Moment.addedBy?, hx, hadd]
  next => cases ha

theorem History.nodup_fired (h : History past w) (key : Key) : (fired key past).Nodup := by
  refine List.nodup_iff_count_le_one.2 fun id => ?_
  by_cases hid : id ∈ delayedAdds key past
  · obtain ⟨m, hm, task, delay, hx, rfl⟩ := mem_delayedAdds.1 hid
    calc (fired key past).count m.world.nextId
        ≤ (past.filterMap (Moment.adder? key)).count m.world.nextId :=
          List.filter_sublist.count_le _
      _ ≤ addCount m.world.nextId past := count_adder?_le past
      _ ≤ 1 := (h.timed m hm task key delay hx).once
  · rw [List.count_eq_zero.2 fun hm => hid (by simpa using (List.mem_filter.1 hm).2)]
    exact Nat.zero_le _

/-- A delayed add that fired is not outstanding. -/
theorem disjoint_fired (key : Key) (past : List Moment) :
    (outstanding key past).Disjoint (fired key past) := by
  intro id ho hf
  have hzero : addCount id past = 0 := by simpa using (List.mem_filter.1 ho).2
  have hcount : 0 < (past.filterMap (Moment.adder? key)).count id :=
    List.count_pos_iff.2 (List.mem_filter.1 hf).1
  have hle : (past.filterMap (Moment.adder? key)).count id ≤ addCount id past :=
    count_adder?_le past
  omega

theorem History.outstanding_add_fired_le (h : History past w) (key : Key) :
    (outstanding key past).length + (fired key past).length ≤ (delayedAdds key past).length := by
  have hnodup : (outstanding key past ++ fired key past).Nodup :=
    ((h.nodup_delayedAdds key).filter _).append (h.nodup_fired key) (disjoint_fired key past)
  have hsubset : outstanding key past ++ fired key past ⊆ delayedAdds key past := by
    intro id hid
    rcases List.mem_append.1 hid with hid | hid
    · exact (List.mem_filter.1 hid).1
    · simpa using (List.mem_filter.1 hid).2
  simpa using (List.subperm_of_subset hnodup hsubset).length_le

theorem adder?_of_handed {m : Moment} (h : m.exchange?.bind Exchange.handed? = some key) :
    m.adder? key = none := by
  obtain ⟨x, hx, hh⟩ := Option.bind_eq_some_iff.1 h
  obtain ⟨task, rfl⟩ := Exchange.handed?_cases hh
  rw [Moment.adder?, hx]
  rfl

/-- Each cause of a hand-out is an add of its own. -/
theorem causes_sublist (key : Key) (past : List Moment) :
    ((firstAdder? key past).toList ++ causes key past).Sublist
      (past.filterMap (Moment.adder? key)) := by
  induction past with
  | nil => exact .slnil
  | cons m past ih =>
    rw [firstAdder?, causes]
    split
    next hh =>
      rw [List.filterMap_cons_none (adder?_of_handed hh)]
      exact ih
    next =>
      cases hadder : m.adder? key with
      | none =>
        rw [List.filterMap_cons_none hadder, Option.or_none]
        exact ih
      | some id =>
        rw [List.filterMap_cons_some hadder]
        cases hfirst : firstAdder? key past with
        | none => exact .cons_cons id ((List.sublist_append_right ..).trans ih)
        | some first =>
          rw [hfirst] at ih
          exact .cons id ih

theorem timedHandOuts_le (key : Key) (past : List Moment) :
    timedHandOuts key past ≤ (fired key past).length := by
  rw [timedHandOuts, fired, ← List.countP_eq_length_filter]
  exact ((List.sublist_append_right ..).trans (causes_sublist key past)).countP_le

/-- Each delayed add is started for a hand-out of its key of its own, by the task that got it; it
adds its key once at the most, and not before its delay is over. So those of a key that are
outstanding and those that fired are together no more than the times it was handed out, and those
outstanding no more than the hand-outs that no delayed add caused. -/
theorem delayedAdds_of_handOuts (h : History past w) (key : Key) :
    (∀ later m earlier task delay, past = later ++ m :: earlier →
      m.exchange? = some ⟨task, .addLater key delay, ()⟩ →
      (∃ since n before, earlier = since ++ n :: before ∧
        n.exchange? = some ⟨task, .take, .key key⟩ ∧
        ∀ o ∈ since, ∀ k d, o.exchange? ≠ some ⟨task, .addLater k d, ()⟩) ∧
      addCount m.world.nextId past ≤ 1 ∧
      ∀ n ∈ past, ∀ k, n.addedBy? m.world.nextId = some k →
        k = key ∧ m.world.clock + delay.ceilMillis ≤ n.world.clock) ∧
    (outstanding key past).length + (fired key past).length ≤ handOuts key past ∧
    (outstanding key past).length ≤ handOuts key past - timedHandOuts key past := by
  have hbound : (outstanding key past).length + (fired key past).length ≤ handOuts key past := by
    have hle := h.outstanding_add_fired_le key
    have hhanded := h.delayedAdds_le key
    omega
  refine ⟨?_, hbound, ?_⟩
  · intro later m earlier task delay hpast hx
    have hentitled : task ∈ entitled key earlier := h.permitted hpast hx
    have htimed := h.timed m (hpast ▸ List.mem_append_right _ List.mem_cons_self) task key delay hx
    exact ⟨handed_of_entitled hentitled, htimed.once, htimed.adds⟩
  · have htimed := timedHandOuts_le key past
    omega

/-- A controller reconciles an association whose cluster is not there yet; the delayed add of that
reconcile fires and causes another one, which starts the next. -/
theorem delayedAdds_of_handOuts_applied :
    let a : Association := ⟨.new ⟨"ns", "a"⟩, ⟨⟨"ns", "es"⟩, ⟨"ns", "kb"⟩⟩, .unknown⟩
    let w₀ := new {} 4 .epoch
    let w₁ := (w₀.spawn none (Controller.run {})).2
    let w₂ := { w₁ with cluster := w₁.cluster.edit (.apply (.association a)) }
    let r₂ := play (List.replicate 30 [1, 3, 4]).flatten ([⟨w₁, none⟩, ⟨w₀, none⟩], w₂)
    let w₃ := { r₂.2 with clock := 20000 }
    let r := play (List.replicate 30 [8, 4]).flatten (⟨r₂.2, none⟩ :: r₂.1, w₃)
    History r.1 r.2 ∧ (delayedAdds a.key r.1).length = 2 ∧ timedHandOuts a.key r.1 = 1 ∧
      (outstanding a.key r.1).length + (fired a.key r.1).length ≤ handOuts a.key r.1 ∧
      (outstanding a.key r.1).length ≤ handOuts a.key r.1 - timedHandOuts a.key r.1 := by
  intro a w₀ w₁ w₂ r₂ w₃ r
  have h₂ : History r₂.1 r₂.2 := History.play (r := (_, w₂))
    (((History.new ..).other (.spawn none (.run {}))).other (.edit _)) _
  have hclock : r₂.2.clock ≤ 20000 := by decide +kernel
  have h : History r.1 r.2 := History.play (r := (_, w₃)) (h₂.other (.time hclock)) _
  exact ⟨h, by decide +kernel, by decide +kernel, (delayedAdds_of_handOuts h a.key).2⟩

/-- Of one key several delayed adds can be outstanding: the finalizer and the status that the first
reconcile writes queue the association again, and the second reconcile starts another. -/
theorem delayedAdds_multiply :
    let a : Association := ⟨.new ⟨"ns", "a"⟩, ⟨⟨"ns", "es"⟩, ⟨"ns", "kb"⟩⟩, .unknown⟩
    let w₀ := new {} 4 .epoch
    let w₁ := (w₀.spawn none (Controller.run {})).2
    let w₂ := { w₁ with cluster := w₁.cluster.edit (.apply (.association a)) }
    let r := play (List.replicate 60 [1, 3, 4]).flatten ([⟨w₁, none⟩, ⟨w₀, none⟩], w₂)
    History r.1 r.2 ∧ 1 < (outstanding a.key r.1).length := by
  intro a w₀ w₁ w₂ r
  have h₂ : History [⟨w₁, none⟩, ⟨w₀, none⟩] w₂ :=
    ((History.new ..).other (.spawn none (.run {}))).other (.edit _)
  exact ⟨History.play (r := (_, w₂)) h₂ _, by decide +kernel⟩

end World

end ClusterLink
