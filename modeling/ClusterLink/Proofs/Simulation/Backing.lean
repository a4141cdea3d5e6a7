import ClusterLink.Proofs.Simulation.History

/-! In every history the warrants of the tasks are backed by the record: who may start a delayed add
of a key was handed the key and has started none since, and who reads the events of a reader is the
one task that was started for that. So the record itself keeps to the warrants
(`History.permitted`). -/

namespace ClusterLink

namespace Exchange

/-- The key that was handed out. -/
def handed? : Exchange → Option Key
  | ⟨_, .take, .key key⟩ => some key
  | _ => none

/-- The key of which a delayed add was started. -/
def delayed? : Exchange → Option Key
  | ⟨_, .addLater key _, _⟩ => some key
  | _ => none

/-- The key that was added to the queue. -/
def added? : Exchange → Option Key
  | ⟨_, .offer key, _⟩ => some key
  | _ => none

/-- The task that subscribed, if it was as this reader. -/
def opener? (reader : ReaderId) : Exchange → Option TaskId
  | ⟨task, .subscribe, id⟩ => if id = reader then some task else none
  | _ => none

/-- The task that was started to read the events, if it was for this reader. -/
def readerTask? (reader : ReaderId) : Exchange → Option TaskId
  | ⟨_, .startReader id, task⟩ => if id = reader then some task else none
  | _ => none

variable {x : Exchange} {reader : ReaderId}

theorem handed?_of_isRoutine (h : x.request.IsRoutine) : x.handed? = none := by
  obtain ⟨task, r, answer⟩ := x
  cases r <;> first | rfl | exact h.elim

theorem delayed?_of_isRoutine (h : x.request.IsRoutine) : x.delayed? = none := by
  obtain ⟨task, r, answer⟩ := x
  cases r <;> first | rfl | exact h.elim

theorem opener?_of_isRoutine (h : x.request.IsRoutine) : x.opener? reader = none := by
  obtain ⟨task, r, answer⟩ := x
  cases r <;> first | rfl | exact h.elim

theorem readerTask?_of_isRoutine (h : x.request.IsRoutine) : x.readerTask? reader = none := by
  obtain ⟨task, r, answer⟩ := x
  cases r <;> first | rfl | exact h.elim

end Exchange

namespace World

/-- The tasks that were handed a key and have started no delayed add since. -/
def entitled (key : Key) : List Moment → List TaskId
  | [] => []
  | m :: past =>
    match m.exchange? with
    | none => entitled key past
    | some x =>
      if x.handed? = some key then x.task :: entitled key past
      else if x.delayed?.isSome then (entitled key past).filter (· != x.task)
      else entitled key past

/-- The task that subscribed as a reader. -/
def opener? (reader : ReaderId) (past : List Moment) : Option TaskId :=
  past.findSome? fun m => m.exchange?.bind (·.opener? reader)

/-- The task that was started to read the events of a reader. -/
def readerTask? (reader : ReaderId) (past : List Moment) : Option TaskId :=
  past.findSome? fun m => m.exchange?.bind (·.readerTask? reader)

/-- A record backs the warrant of a task. -/
def Backed (past : List Moment) (id : TaskId) : Warrant → Prop
  | .none => True
  | .retry key => id ∈ entitled key past
  | .opening reader => opener? reader past = some id ∧ readerTask? reader past = none
  | .reading reader => readerTask? reader past = some id

/-- A record lets a task make a request. -/
def Permits (past : List Moment) : Exchange → Prop
  | ⟨task, .addLater key _, _⟩ => task ∈ entitled key past
  | ⟨task, .startReader reader, _⟩ =>
    opener? reader past = some task ∧ readerTask? reader past = none
  | ⟨task, .receive reader, _⟩ => readerTask? reader past = some task
  | _ => True

variable {past : List Moment} {w w' w₁ : World} {id : TaskId} {t u : Task} {r : Request}
  {answer : r.Answer} {reader : ReaderId} {key : Key} {v v' : Warrant} {x : Exchange}

/-! ## The record -/

theorem entitled_cons : entitled key (⟨w, some x⟩ :: past) =
    if x.handed? = some key then x.task :: entitled key past
    else if x.delayed?.isSome then (entitled key past).filter (· != x.task)
    else entitled key past :=
  rfl

theorem backed_none : Backed (⟨w, none⟩ :: past) id v ↔ Backed past id v := by
  cases v <;> rfl

theorem entitled_of_isRoutine (h : x.request.IsRoutine) :
    entitled key (⟨w, some x⟩ :: past) = entitled key past := by
  simp [entitled_cons, Exchange.handed?_of_isRoutine h, Exchange.delayed?_of_isRoutine h]

theorem opener?_cons_of_none (h : x.opener? reader = none) :
    opener? reader (⟨w, some x⟩ :: past) = opener? reader past := by
  simp [opener?, h]

theorem readerTask?_cons_of_none (h : x.readerTask? reader = none) :
    readerTask? reader (⟨w, some x⟩ :: past) = readerTask? reader past := by
  simp [readerTask?, h]

/-- Whoever is entitled stays so until it starts a delayed add itself. -/
theorem mem_entitled_cons (h : id ∈ entitled key past) (hx : x.task = id → x.delayed? = none) :
    id ∈ entitled key (⟨w, some x⟩ :: past) := by
  rw [entitled_cons]
  split
  next => exact List.mem_cons_of_mem _ h
  next =>
    split
    next hd =>
      refine List.mem_filter.2 ⟨h, bne_iff_ne.2 fun e => ?_⟩
      rw [hx e.symm] at hd
      cases hd
    next => exact h

/-- The requests of another task leave a warrant backed. -/
theorem Backed.of_ne (h : Backed past id v) (hne : x.task ≠ id) (hx : Permits past x)
    (hfresh : ∀ reader, x.opener? reader ≠ none → opener? reader past = none) :
    Backed (⟨w, some x⟩ :: past) id v := by
  have kept {reader : ReaderId} (hopen : opener? reader past = some id) :
      opener? reader (⟨w, some x⟩ :: past) = some id := by
    rw [opener?_cons_of_none, hopen]
    by_contra hn
    rw [hfresh _ hn] at hopen
    cases hopen
  have unstarted {reader : ReaderId} (h : x.readerTask? reader ≠ none) :
      opener? reader past = some x.task ∧ readerTask? reader past = none := by
    obtain ⟨task, r, answer⟩ := x
    cases r <;> first | exact absurd rfl h | skip
    simp only [Exchange.readerTask?] at h
    split at h
    next e => exact e ▸ hx
    next => exact absurd rfl h
  cases v with
  | none => trivial
  | retry key => exact mem_entitled_cons h fun e => absurd e hne
  | opening reader =>
    refine ⟨kept h.1, ?_⟩
    rw [readerTask?_cons_of_none, h.2]
    by_contra hn
    exact hne (Option.some.inj ((unstarted hn).1.symm.trans h.1))
  | reading reader =>
    have h : readerTask? reader past = some id := h
    show readerTask? reader (⟨w, some x⟩ :: past) = some id
    rw [readerTask?_cons_of_none, h]
    by_contra hn
    rw [(unstarted hn).2] at h
    cases h

/-- A backed warrant lets its task make the requests that use it. -/
theorem Backed.permits (h : Backed past id v) (hu : v.Use r answer v') :
    Permits past ⟨id, r, answer⟩ := by
  cases hu with
  | routine hr => cases r <;> trivial
  | key | noKey | subscribe => trivial
  | addLater | startReader | receive => exact h

/-- What an answer lets a task do is backed by the record of it. -/
theorem Backed.use (h : Backed past id v) (hu : v.Use r answer v')
    (hfresh : ∀ reader, Exchange.opener? reader ⟨id, r, answer⟩ ≠ none →
      readerTask? reader past = none) :
    Backed (⟨w, some ⟨id, r, answer⟩⟩ :: past) id v' := by
  cases hu with
  | routine hr =>
    cases v with
    | none => trivial
    | retry key =>
      have hsame : entitled key (⟨w, some ⟨id, r, answer⟩⟩ :: past) = entitled key past :=
        entitled_of_isRoutine hr
      exact Eq.mpr (congrArg (id ∈ ·) hsame) h
    | opening reader =>
      refine ⟨?_, ?_⟩
      · rw [opener?_cons_of_none (Exchange.opener?_of_isRoutine hr), h.1]
      · rw [readerTask?_cons_of_none (Exchange.readerTask?_of_isRoutine hr), h.2]
    | reading reader =>
      exact (readerTask?_cons_of_none (Exchange.readerTask?_of_isRoutine hr)).trans h
  | key =>
    show id ∈ entitled _ _
    simp [entitled_cons, Exchange.handed?]
  | noKey | addLater | startReader => trivial
  | @subscribe reader =>
    refine ⟨by simp [opener?, Exchange.opener?], ?_⟩
    rw [readerTask?_cons_of_none rfl]
    exact hfresh reader (by simp [Exchange.opener?])
  | receive => exact (readerTask?_cons_of_none rfl).trans h

/-! ## Histories -/

/-- Every task is at work with a warrant that the record backs. -/
structure Warranted (past : List Moment) (w : World) : Prop where
  tasks : ∀ ⦃t⦄, t ∈ w.tasks → ∃ base v, Controller.IsLawful base t.round ∧
    t.work.Obeys (fun _ _ => True) v ∧ (base = .none ∨ base = v ∧ ∃ reader, v = .reading reader) ∧
    Backed past t.id v
  unborn : ∀ ⦃reader⦄, w.nextId ≤ reader →
    opener? reader past = none ∧ readerTask? reader past = none
  hired : ∀ ⦃reader id⦄, readerTask? reader past = some id → id < w.nextId

namespace Warranted

/-- A step or an interlude without a question. -/
theorem of_silent (h : Warranted past w) (hn : w.nextId ≤ w'.nextId)
    (ht : ∀ u ∈ w'.tasks, u ∈ w.tasks ∨ Controller.IsLawful .none u.round ∧ u.work = u.round ∨
      ∃ t ∈ w.tasks, u = { t with work := t.round }) :
    Warranted (⟨w, none⟩ :: past) w' := by
  refine ⟨fun u hu => ?_, fun reader hr => h.unborn (Nat.le_trans hn hr), fun reader id hr =>
    Nat.lt_of_lt_of_le (h.hired hr) hn⟩
  simp only [backed_none]
  rcases ht u hu with hu | ⟨hlawful, hw⟩ | ⟨t, ht, rfl⟩
  · exact h.tasks hu
  · exact ⟨.none, .none, hlawful, hw ▸ hlawful, .inl rfl, trivial⟩
  · obtain ⟨base, v, hlawful, -, hbase, hbacked⟩ := h.tasks ht
    rcases hbase with rfl | ⟨rfl, hv⟩
    · exact ⟨.none, .none, hlawful, hlawful, .inl rfl, trivial⟩
    · exact ⟨base, base, hlawful, hlawful, .inr ⟨rfl, hv⟩, hbacked⟩

/-- A task that asks was let to by the record. -/
theorem permits (h : Warranted past w) (ht : t ∈ w.tasks) {next : r.Answer → Round}
    (hw : t.work = .ask r next) (answer : r.Answer) : Permits past ⟨t.id, r, answer⟩ := by
  obtain ⟨base, v, -, hobeys, -, hbacked⟩ := h.tasks ht
  rw [hw] at hobeys
  obtain ⟨v', hu, -⟩ := hobeys answer
  exact hbacked.permits hu

/-- Whoever subscribes does so as a reader that was not there before. -/
theorem fresh (h : Warranted past w) (ha : w.attempt id r = some (answer, w₁))
    (hr : Exchange.opener? reader ⟨id, r, answer⟩ ≠ none) :
    opener? reader past = none ∧ readerTask? reader past = none := by
  cases r <;> first | exact absurd rfl hr | skip
  cases ha
  simp only [Exchange.opener?] at hr
  split at hr
  next e => exact h.unborn (Nat.le_of_eq e)
  next => exact absurd rfl hr

theorem unborn_cons (h : Warranted past w) (ht : t ∈ w.tasks) {next : r.Answer → Round}
    (hw : t.work = .ask r next) (ha : w.attempt t.id r = some (answer, w₁))
    (hr : w₁.nextId ≤ reader) : opener? reader (⟨w, some ⟨t.id, r, answer⟩⟩ :: past) = none ∧
      readerTask? reader (⟨w, some ⟨t.id, r, answer⟩⟩ :: past) = none := by
  obtain ⟨hopener, hreader⟩ := h.unborn (Nat.le_trans (attempt_answered ha).nextId hr)
  have hpermits := h.permits ht hw answer
  constructor
  · rw [opener?_cons_of_none, hopener]
    cases r <;> first | rfl | skip
    cases ha
    exact if_neg (Nat.ne_of_lt hr)
  · rw [readerTask?_cons_of_none, hreader]
    cases r <;> first | rfl | skip
    refine if_neg ?_
    rintro rfl
    rw [hpermits.1] at hopener
    cases hopener

end Warranted

/-- Whoever reads the events of a reader after an answer did so before, or was started by it. -/
theorem readerTask?_answered (ha : w.attempt t.id r = some (answer, w₁))
    (h : readerTask? reader (⟨w, some ⟨t.id, r, answer⟩⟩ :: past) = some id) :
    readerTask? reader past = some id ∨
      r = .startReader reader ∧ id = w.nextId ∧ id < w₁.nextId := by
  by_cases hn : Exchange.readerTask? reader ⟨t.id, r, answer⟩ = none
  · rw [readerTask?_cons_of_none hn] at h
    exact .inl h
  · cases r <;> first | exact absurd rfl hn | skip
    simp only [Exchange.readerTask?] at hn
    split at hn
    next e =>
      subst e
      cases ha
      simp only [readerTask?, List.findSome?_cons, Option.bind_some, Exchange.readerTask?] at h
      cases h
      exact .inr ⟨rfl, rfl, Nat.lt_succ_self _⟩
    next => exact absurd rfl hn

/-- After an answer there are the task that got it, the others, and perhaps one that it starts. -/
theorem Ordered.mem_answered (h : Ordered past w) (ht : t ∈ w.tasks)
    (ha : w.attempt t.id r = some (answer, w₁)) {p : Round} (hu : u ∈ (w₁.setWork t.id p).tasks) :
    u = { t with work := p } ∨ u ∈ w.tasks ∧ u.id ≠ t.id ∨
      ∃ label round, w.recruit? r = some round ∧ u = ⟨w.nextId, label, round, round⟩ := by
  have hjoins := (attempt_answered ha).joins
  rcases mem_setWork.1 hu with ⟨x, hx, e, rfl⟩ | ⟨hu, hne⟩
  · rcases hjoins.mem hx with hx | ⟨label, round, -, rfl, -⟩
    · exact .inl (h.unique hx ht e ▸ rfl)
    · exact absurd e (Nat.ne_of_gt (h.tasks ht))
  · rcases hjoins.mem hu with hu | ⟨label, round, hr, e, -⟩
    · exact .inr (.inl ⟨hu, hne⟩)
    · exact .inr (.inr ⟨label, round, hr, e⟩)

theorem History.warranted (h : History past w) : Warranted past w := by
  refine h.invariant ?_ ?_ ?_ ?_ ?_
  · exact fun _ _ _ => ⟨fun _ ht => (nomatch ht), fun _ _ => ⟨rfl, rfl⟩, fun _ _ h => nomatch h⟩
  · intro past w w' h ih hi
    refine ih.of_silent (hi.advances h.ordered.keyed).nextId fun u hu => ?_
    refine (hi.joins.mem hu).imp_right ?_
    rintro ⟨label, round, hround, rfl, -⟩
    exact .inl ⟨hround.isLawful, rfl⟩
  · intro past w t h ih ht hw
    have hn : w.nextId ≤ (w.setWork t.id t.round).nextId := Nat.le_refl _
    refine ih.of_silent hn fun u hu => ?_
    rcases h.ordered.mem_restarted ht hu with rfl | hu
    · exact .inr (.inr ⟨t, ht, rfl⟩)
    · exact .inl hu
  · intro past w t ending _ ih ht hw
    have hn : w.nextId ≤ (w.finish t ending).nextId := Nat.le_refl _
    exact ih.of_silent hn fun u hu => .inl (List.mem_filter.1 hu).1
  · intro past w t r next answer w₁ h ih ht hw ha
    have hfresh : ∀ reader, Exchange.opener? reader ⟨t.id, r, answer⟩ ≠ none → _ :=
      fun _ => ih.fresh ha
    refine ⟨fun u hu => ?_, fun _ hr => ih.unborn_cons ht hw ha hr,
      fun _ _ hr => ?_⟩
    rotate_left
    · rcases readerTask?_answered ha hr with hold | ⟨-, -, hlt⟩
      · exact Nat.lt_of_lt_of_le (ih.hired hold) (attempt_answered ha).nextId
      · exact hlt
    rcases h.ordered.mem_answered ht ha hu with rfl | ⟨hu, hne⟩ | ⟨label, round, hr, rfl⟩
    · obtain ⟨base, v, hlawful, hobeys, hbase, hbacked⟩ := ih.tasks ht
      rw [hw] at hobeys
      obtain ⟨v', hu, hnext⟩ := hobeys answer
      refine ⟨base, v', hlawful, hnext, ?_, hbacked.use hu fun _ hn => (hfresh _ hn).2⟩
      refine hbase.imp_right ?_
      rintro ⟨rfl, reader, rfl⟩
      cases hu <;> exact ⟨rfl, reader, rfl⟩
    · obtain ⟨base, v, hlawful, hobeys, hbase, hbacked⟩ := ih.tasks hu
      exact ⟨base, v, hlawful, hobeys, hbase,
        hbacked.of_ne hne.symm (ih.permits ht hw answer) fun _ hn => (hfresh _ hn).1⟩
    · cases r <;> cases hr
      · exact ⟨.none, .none, Controller.isLawful_addAt .., Controller.isLawful_addAt .., .inl rfl,
          trivial⟩
      · cases ha
        refine ⟨_, _, Controller.isLawful_reader _, Controller.isLawful_reader _,
          .inr ⟨rfl, _, rfl⟩, ?_⟩
        simp [Backed, readerTask?, Exchange.readerTask?]
      · exact ⟨.none, .none, Controller.isLawful_worker _, Controller.isLawful_worker _, .inl rfl,
          trivial⟩

/-- Whatever a task asked, the record until then let it. -/
theorem History.permitted (h : History past w) {later earlier : List Moment} {m : Moment}
    (hpast : past = later ++ m :: earlier) (hx : m.exchange? = some x) : Permits earlier x := by
  subst hpast
  induction later generalizing w with
  | nil =>
    cases h with
    | other => cases hx
    | step h hs =>
      obtain ⟨t, ht, rfl, ⟨-, hn, -⟩ | ⟨-, -, hn, -⟩ | ⟨r, next, answer, w₁, hw, -, hn, -⟩⟩ :=
        step?_exchange hs
      · cases hn.symm.trans hx
      · cases hn.symm.trans hx
      · cases hn.symm.trans hx
        exact h.warranted.permits ht hw answer
  | cons n later ih => exact ih h.uncons

end World

end ClusterLink
