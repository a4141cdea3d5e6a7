import ClusterLink.Proofs.Controller.Attention
import ClusterLink.Proofs.Simulation.Backing

/-! What becomes of the events that a reader of the log did not get because it fell behind. It lists
all associations and adds their keys, so whoever an event concerned is added after it, unless that
listing fails: the reader goes on then, and what it missed stays lost until it falls behind once
more and a listing succeeds. `Covered` says for one event that whom it concerns was added, will be,
or has an event of its own further on, unless the event was missed. -/

namespace ClusterLink

/-- The reader for whose next event a task waits. -/
def Task.awaited? (t : Task) : Option ReaderId :=
  match t.work with
  | .ask (.receive reader) _ => some reader
  | _ => none

theorem Task.ask_of_awaited? {t : Task} {reader : ReaderId} (h : t.awaited? = some reader) :
    ∃ next, t.work = .ask (.receive reader) next := by
  unfold awaited? at h
  split at h
  next next hw =>
    cases h
    exact ⟨next, hw⟩
  next => cases h

/-- The error of a listing that failed. -/
def Exchange.listError? : Exchange → Option StoreError
  | ⟨_, .list, .error e⟩ => some e
  | _ => none

namespace Work

/-- Work lists the associations, adds the keys of all, and does not list again. -/
def IsListing (p : Work α) : Prop :=
  ∃ next, p = .ask .list next ∧ p.Sweeps ∧ ∀ answer, Only Request.IsListless (next answer)

theorem IsListing.bind {p : Work α} {f : α → Work β} (h : p.IsListing)
    (hf : ∀ a, (f a).Only Request.IsListless) : IsListing (p.bind f) := by
  obtain ⟨next, rfl, hsweeps, hlistless⟩ := h
  exact ⟨_, rfl, hsweeps.bind f, fun answer => (hlistless answer).bind hf⟩

end Work

namespace Controller

open Work

theorem isListing_enqueueAll : enqueueAll.IsListing := by
  refine ⟨_, rfl, sweeps_enqueueAll, fun answer => ?_⟩
  cases answer with
  | error => trivial
  | ok l => exact (isListless_addAll _).bind fun _ => trivial

/-- Who reads the events does what an event asks for without a listing, and lists when it fell
behind. -/
theorem reader_next (reader : ReaderId) : ∃ next : Received → Round,
    Controller.reader reader = .ask (.receive reader) next ∧
      (∀ e, (next (.event e)).Only Request.IsListless ∧ (next (.event e)).Reacts e) ∧
      ∀ missed, (next (.lagged missed)).IsListing := by
  refine ⟨_, rfl, fun e => ?_, fun missed => isListing_enqueueAll.bind fun _ => trivial⟩
  exact ⟨(isListless_handleEvent e).bind fun _ => trivial, (reacts_handleEvent e).bind _⟩

end Controller

namespace World

open Work

/-- An event concerns a key: it is about the association itself, or about an object that the key has
watched from then on. -/
def Concerned (past : List Moment) (w : World) (i : Nat) (e : Event) (key : Key) : Prop :=
  e.kind = .association ∧ e.key = key ∨
    key ∈ w.cluster.watches.watchersOf e.kind e.key ∧
      ∀ m ∈ past, i < m.world.cluster.store.log.size →
        key ∈ m.world.cluster.watches.watchersOf e.kind e.key

/-- A task added a key to the queue when an event was there. -/
def AddedSince (past : List Moment) (id : TaskId) (i : Nat) (key : Key) : Prop :=
  ∃ m ∈ past, i < m.world.cluster.store.log.size ∧
    ∃ queued, m.exchange? = some ⟨id, .offer key, queued⟩

/-- A task was told that it fell behind, and an event is among those that it missed. -/
def Missed (id : TaskId) (i : Nat) (m : Moment) : Prop :=
  ∃ reader missed place, m.exchange? = some ⟨id, .receive reader, .lagged missed⟩ ∧
    m.world.readers.lookup reader = some place ∧ place ≤ i ∧ i < place + missed

/-- A task listed the associations. -/
def Listed (id : TaskId) (m : Moment) : Prop :=
  ∃ l, m.exchange? = some ⟨id, .list, .ok l⟩

/-- A task could not list the associations. -/
def ListFailed (id : TaskId) (m : Moment) : Prop :=
  ∃ error, m.exchange? = some ⟨id, .list, .error error⟩

/-- A task missed an event because it fell behind, and since then tried to list the associations,
but in vain each time. -/
def Lost (past : List Moment) (id : TaskId) (i : Nat) : Prop :=
  ∃ later m earlier, past = later ++ m :: earlier ∧ Missed id i m ∧
    (∃ n ∈ later, ListFailed id n) ∧ ∀ n ∈ later, ¬Listed id n

/-- Of an event and those after it one that concerns a key was lost. -/
def LostFrom (past : List Moment) (w : World) (id : TaskId) (i : Nat) (key : Key) : Prop :=
  ∃ j e, i ≤ j ∧ w.cluster.store.log.events[j]? = some e ∧ Concerned past w j e key ∧
    Lost past id j

/-- A task missed an event and has not listed the associations since; it is about to, or has tried
in vain. -/
def Overrun (past : List Moment) (id : TaskId) (p : Round) (i : Nat) : Prop :=
  ∃ later m earlier, past = later ++ m :: earlier ∧ Missed id i m ∧
    (p.Sweeps ∨ ∃ n ∈ later, ListFailed id n) ∧ ∀ n ∈ later, ¬Listed id n

/-- Work is going to add a key because of an event that it got. -/
def Due (e : Event) (key : Key) (p : Round) : Prop :=
  p.Only Request.IsListless ∧ (p.Offers key ∨ p.Maps e.kind e.key ∧ e.kind ≠ .association)

/-- A task has added a key since an event was there, or is going to because of it, or it missed the
event and has not made up for it. -/
def Met (past : List Moment) (id : TaskId) (p : Round) (i : Nat) (e : Event) (key : Key) : Prop :=
  AddedSince past id i key ∨ Due e key p ∨ Overrun past id p i

/-- A task has met an event for all whom it concerns, or there is a later event about the
association itself. -/
def Covered (past : List Moment) (w : World) (id : TaskId) (p : Round) (i : Nat) : Prop :=
  ∀ e key, w.cluster.store.log.events[i]? = some e → Concerned past w i e key → w.Stores key →
    Met past id p i e key ∨ w.cluster.store.log.Tells (i + 1) .association key

variable {past : List Moment} {w w' w₁ : World} {id : TaskId} {t u : Task} {r : Request}
  {answer : r.Answer} {reader : ReaderId} {key : Key} {i j : Nat} {e : Event} {m : Moment}
  {p p' : Round} {x? : Option Exchange}

/-! ## One event -/

theorem AddedSince.cons (h : AddedSince past id i key) : AddedSince (m :: past) id i key :=
  let ⟨n, hn, h⟩ := h
  ⟨n, List.mem_cons_of_mem _ hn, h⟩

theorem AddedSince.mono (h : AddedSince past id j key) (hij : i ≤ j) : AddedSince past id i key :=
  let ⟨m, hm, hlt, h⟩ := h
  ⟨m, hm, Nat.lt_of_le_of_lt hij hlt, h⟩

theorem LostFrom.mono (h : LostFrom past w id j key) (hij : i ≤ j) : LostFrom past w id i key :=
  let ⟨k, e, hjk, h⟩ := h
  ⟨k, e, Nat.le_trans hij hjk, h⟩

/-- What was missed stays missed until the task lists. -/
theorem Overrun.cons (h : Overrun past id p i) (hm : ¬Listed id m)
    (hp : p.Sweeps → p'.Sweeps ∨ ListFailed id m) : Overrun (m :: past) id p' i := by
  obtain ⟨later, n, earlier, rfl, hn, htried, hlater⟩ := h
  refine ⟨m :: later, n, earlier, rfl, hn, ?_, List.forall_mem_cons.2 ⟨hm, hlater⟩⟩
  rcases htried with hsweeps | ⟨o, ho, hfailed⟩
  · exact (hp hsweeps).imp_right fun hfailed => ⟨m, List.mem_cons_self, hfailed⟩
  · exact .inr ⟨o, List.mem_cons_of_mem _ ho, hfailed⟩

theorem Overrun.lost (h : Overrun past id p i) (hp : ¬p.Sweeps) : Lost past id i := by
  obtain ⟨later, m, earlier, hpast, hm, htried, hlater⟩ := h
  exact ⟨later, m, earlier, hpast, hm, htried.resolve_left hp, hlater⟩

/-- Before a step an event concerned all whom it concerns after it. -/
theorem Concerned.uncons (h : Concerned (⟨w, x?⟩ :: past) w' i e key)
    (hi : i < w.cluster.store.log.size) : Concerned past w i e key := by
  refine h.imp_right fun h => ⟨h.2 _ List.mem_cons_self hi, fun m hm => ?_⟩
  exact h.2 m (List.mem_cons_of_mem _ hm)

/-- An event that is there stays covered, if the task meets it as before. -/
theorem Covered.advance (h : Covered past w id p i) (hi : i < w.cluster.store.log.size)
    (hadv : Advances w w')
    (hmet : ∀ e key, Concerned past w i e key → w.Stores key → Met past id p i e key →
      Met (⟨w, x?⟩ :: past) id p' i e key) : Covered (⟨w, x?⟩ :: past) w' id p' i := by
  intro e key he hc ⟨a, ha⟩
  have hold : w.cluster.store.log.events[i]? = some e := by
    have hget := Array.getElem?_eq_getElem hi
    rw [hget, ← he, hadv.logs.kept hget]
  have hc := hc.uncons hi
  rcases hadv.logs.associations key with hsame | htells
  · have hs : w.Stores key := ⟨a, hsame ▸ ha⟩
    exact (h e key hold hc hs).imp (hmet e key hc hs) hadv.logs.kept.tells
  -- What is stored anew has an event of its own.
  · exact .inr (htells.mono hi)

/-- A task that goes on as before meets an event as before. -/
theorem Met.of_idle (h : Met past id p i e key) (hx : ∀ x, x? = some x → x.task ≠ id) :
    Met (⟨w, x?⟩ :: past) id p i e key := by
  refine h.imp AddedSince.cons (Or.imp_right fun hover => hover.cons ?_ .inl)
  rintro ⟨l, hl⟩
  exact hx _ hl rfl

/-- Work at the end of a round has nothing left to do. -/
theorem not_due_done {ending : Option Ending} : ¬Due e key (.done ending) := by
  rintro ⟨-, h | ⟨h, -⟩⟩ <;> exact h

theorem Met.of_done {ending : Option Ending} (h : Met past id (.done ending) i e key) :
    Met (⟨w, none⟩ :: past) id p i e key := by
  rcases h with hadded | hdue | hover
  · exact .inl hadded.cons
  · exact absurd hdue not_due_done
  · exact .inr (.inr (hover.cons (fun ⟨_, hl⟩ => nomatch hl) False.elim))

/-- What a task was going to do for an event it has done by its question, or still will. -/
theorem Due.answered {next : r.Answer → Round} (h : Due e key (.ask r next))
    (htrue : w.Truthful r answer) (hc : Concerned past w i e key)
    (hi : i < w.cluster.store.log.size) :
    AddedSince (⟨w, some ⟨id, r, answer⟩⟩ :: past) id i key ∨ Due e key (next answer) := by
  obtain ⟨⟨⟨hroutine, hlist⟩, hlistless⟩, hoffers | ⟨hmaps, hkind⟩⟩ := h
  · by_cases hoffer : r = .offer key
    · subst hoffer
      exact .inl ⟨_, List.mem_cons_self, hi, answer, rfl⟩
    · refine .inr ⟨hlistless answer, .inl (hoffers.step ?_ fun hrefused => ?_)⟩
      · rintro (rfl | ⟨delay, rfl⟩)
        · exact hoffer rfl
        · exact hroutine
      · cases r <;> first | exact hrefused | exact hlist rfl
  · cases r <;> first | exact hmaps.elim | skip
    case watchersOf kind watched =>
      obtain ⟨⟨rfl, rfl⟩, hkeys⟩ := hmaps
      obtain rfl : answer = w.cluster.watches.watchersOf e.kind e.key := htrue
      rcases hc with ⟨hassoc, -⟩ | ⟨hmem, -⟩
      · exact absurd hassoc hkind
      · exact .inr ⟨hlistless _, .inl (hkeys _ key hmem)⟩

/-- Once the associations were listed, the missed events are made up for. -/
theorem Overrun.answered {next : r.Answer → Round} (h : Overrun past id (.ask r next) i)
    (hkeyed : w.cluster.store.Keyed) (htrue : w.Truthful r answer) (hr : r ≠ .subscribe)
    (hlisting : r = .list → IsListing (.ask r next)) (hs : w.Stores key) :
    Due e key (next answer) ∨
      Overrun (⟨w, some ⟨id, r, answer⟩⟩ :: past) id (next answer) i := by
  by_cases hlist : r = .list
  · subst hlist
    obtain ⟨next', hnext, hsweeps, hlistless⟩ := hlisting rfl
    cases hnext
    cases answer with
    | error error =>
      have hnot : ¬Listed id ⟨w, some ⟨id, .list, .error error⟩⟩ := by
        rintro ⟨l, hl⟩
        cases hl
      exact .inr (h.cons hnot fun _ => .inr ⟨error, rfl⟩)
    | ok l =>
      obtain ⟨a, hstored⟩ := hs
      have hmem : a ∈ w.cluster.store.associations.values :=
        (Dict.mem_values_iff _ a).2 ⟨key, hstored⟩
      obtain rfl : l = w.cluster.store.associations.values := htrue
      obtain rfl : a.key = key := hkeyed.associations hstored
      exact .inl ⟨hlistless _, .inl (hsweeps _ a hmem)⟩
  · have hnot : ¬Listed id ⟨w, some ⟨id, r, answer⟩⟩ := by
      rintro ⟨l, hl⟩
      cases hl
      exact hlist rfl
    refine .inr (h.cons hnot fun hsweeps => ?_)
    cases r <;> first | exact hsweeps.elim | exact absurd rfl hlist | exact absurd rfl hr

theorem not_due_reader : ¬Due e key (Controller.reader reader) := by
  rintro ⟨⟨⟨h, -⟩, -⟩, -⟩
  exact h

/-! ## The reader -/

/-- A moment at which a reader of the log began. -/
def IsSubscription (reader : ReaderId) (m : Moment) : Prop :=
  ∃ task, m.exchange? = some ⟨task, .subscribe, reader⟩

/-- A task reads the events of a reader, and has covered all that it is past. -/
structure Reads (past : List Moment) (w : World) (reader : ReaderId) (t : Task) : Prop where
  round : t.round = Controller.reader reader
  work : t.work = Controller.reader reader ∨ t.work.Only Request.IsListless ∨ t.work.IsListing
  covered : ∀ ⦃place⦄, (reader, place) ∈ w.readers → ∀ s ∈ past, IsSubscription reader s →
    ∀ i, s.world.cluster.store.log.size ≤ i → i < place → Covered past w t.id t.work i

/-- All readers have covered what they are past, and those without a task are where they began. -/
structure Followed (past : List Moment) (w : World) : Prop where
  waiting : ∀ ⦃reader⦄, readerTask? reader past = none → ∀ place, (reader, place) ∈ w.readers →
    ∀ s ∈ past, IsSubscription reader s → place ≤ s.world.cluster.store.log.size
  tasks : ∀ ⦃t⦄, t ∈ w.tasks → ∀ reader, readerTask? reader past = some t.id →
    Reads past w reader t

theorem mem_setReader {place place' : Nat}
    (h : (reader, place') ∈ (w.setReader reader place).readers) : place' = place := by
  obtain ⟨x, hx, e⟩ := List.mem_map.1 h
  split at e
  next => exact (Prod.mk.inj e).2.symm
  next hne => exact absurd (congrArg Prod.fst e) hne

theorem mem_setReader_of_ne {reader' : ReaderId} {place place' : Nat} (hne : reader' ≠ reader)
    (h : (reader', place') ∈ (w.setReader reader place).readers) :
    (reader', place') ∈ w.readers := by
  obtain ⟨x, hx, e⟩ := List.mem_map.1 h
  split at e
  next => exact absurd (Prod.mk.inj e).1.symm hne
  next => exact e ▸ hx

theorem mem_of_lookup {l : List (ReaderId × Nat)} {place : Nat} (h : l.lookup reader = some place) :
    (reader, place) ∈ l := by
  obtain ⟨l₁, l₂, rfl, -⟩ := List.lookup_eq_some_iff.1 h
  exact List.mem_append_right _ List.mem_cons_self

/-- A reader's task goes on with `p`, and covers what it gets past meanwhile. -/
theorem Reads.advance (h : Reads past w reader t) (ho : Ordered past w) (hadv : Advances w w')
    (hx : ¬IsSubscription reader ⟨w, x?⟩)
    (hp : p = Controller.reader reader ∨ p.Only Request.IsListless ∨ p.IsListing)
    (hplaces : ∀ place, (reader, place) ∈ w'.readers → ∃ place₀, (reader, place₀) ∈ w.readers ∧
      ∀ i, place₀ ≤ i → i < place → Covered (⟨w, x?⟩ :: past) w' t.id p i)
    (hmet : ∀ i e key, i < w.cluster.store.log.size → Concerned past w i e key → w.Stores key →
      Met past t.id t.work i e key → Met (⟨w, x?⟩ :: past) t.id p i e key) :
    Reads (⟨w, x?⟩ :: past) w' reader { t with work := p } := by
  refine ⟨h.round, hp, fun place hplace s hs hsub i hi hlt => ?_⟩
  obtain ⟨place₀, hplace₀, hnew⟩ := hplaces place hplace
  rcases List.mem_cons.1 hs with rfl | hs
  · exact absurd hsub hx
  · by_cases hold : i < place₀
    · have hsize := Nat.lt_of_lt_of_le hold (ho.readers hplace₀).2
      have hcovered := h.covered hplace₀ s hs hsub i hi hold
      exact hcovered.advance hsize hadv fun e key => hmet i e key hsize
    · exact hnew i (Nat.le_of_not_lt hold) hlt

/-- The task of another reader goes on, or something happens in between. -/
theorem Reads.of_idle (h : Reads past w reader t) (ho : Ordered past w) (hadv : Advances w w')
    (hx : ¬IsSubscription reader ⟨w, x?⟩) (hother : ∀ x, x? = some x → x.task ≠ t.id)
    (hreaders : ∀ place, (reader, place) ∈ w'.readers → (reader, place) ∈ w.readers) :
    Reads (⟨w, x?⟩ :: past) w' reader t :=
  h.advance ho hadv hx h.work
    (fun place hplace => ⟨place, hreaders place hplace, fun _ hle hlt =>
      absurd hlt (Nat.not_lt_of_le hle)⟩)
    fun _ _ _ _ _ _ hmet => hmet.of_idle hother

theorem due_of_reacts (hp : p.Only Request.IsListless) (h : p.Reacts e)
    (hc : Concerned past w i e key) : Due e key p := by
  refine ⟨hp, ?_⟩
  obtain ⟨kind, watched, action⟩ := e
  rcases hc with ⟨rfl, rfl⟩ | ⟨hmem, -⟩
  · exact .inl h
  · cases kind with
    | association | secret => cases hmem
    | elasticsearch | kibana => exact .inr ⟨h, nofun⟩

/-- What the reader's task is going to do with what it got covers what it got past. -/
theorem covered_receive {next : Received → Round} {received : Received} {place place' : Nat}
    (hevent : ∀ e, (next (.event e)).Only Request.IsListless ∧ (next (.event e)).Reacts e)
    (hlagged : ∀ missed, (next (.lagged missed)).IsListing)
    (hl : w.readers.lookup reader = some place)
    (hn : w.cluster.store.log.next? place = some (received, place'))
    (hcluster : w'.cluster = w.cluster) (hle : place ≤ i) (hlt : i < place') :
    Covered (⟨w, some ⟨id, .receive reader, received⟩⟩ :: past) w' id (next received) i := by
  intro e key he hc _
  rw [hcluster] at he
  rcases EventLog.next?_cases hn with ⟨⟨missed, rfl, rfl⟩, -⟩ | ⟨e', rfl, he', rfl⟩
  · have hmissed : Missed id i ⟨w, some ⟨id, .receive reader, .lagged missed⟩⟩ :=
      ⟨reader, missed, place, rfl, hl, hle, hlt⟩
    obtain ⟨-, -, hsweeps, -⟩ := hlagged missed
    exact .inl (.inr (.inr ⟨[], _, past, rfl, hmissed, .inl hsweeps, List.forall_mem_nil _⟩))
  · obtain rfl : i = place := Nat.le_antisymm (Nat.le_of_lt_succ hlt) hle
    cases he.symm.trans he'
    obtain ⟨hlistless, hreacts⟩ := hevent e
    exact .inl (.inr (.inl (due_of_reacts hlistless hreacts hc)))

/-- A reader's task asks and is answered. -/
theorem Reads.answered (h : Reads past w reader t) (ho : Ordered past w)
    {next : r.Answer → Round} (hw : t.work = .ask r next)
    (ha : w.attempt t.id r = some (answer, w₁)) :
    Reads (⟨w, some ⟨t.id, r, answer⟩⟩ :: past) (w₁.setWork t.id (next answer)) reader
      { t with work := next answer } := by
  have hadv := (attempt_advances ho.keyed ha).setWork t.id (next answer)
  have htrue := attempt_truthful ha
  have unsubscribed (hr : r ≠ .subscribe) :
      ¬IsSubscription reader ⟨w, some ⟨t.id, r, answer⟩⟩ := by
    rintro ⟨task, e⟩
    cases e
    exact hr rfl
  have met (hr : r ≠ .subscribe) (hlisting : r = .list → IsListing (.ask r next)) : ∀ i e key,
      i < w.cluster.store.log.size → Concerned past w i e key → w.Stores key →
      Met past t.id t.work i e key →
        Met (⟨w, some ⟨t.id, r, answer⟩⟩ :: past) t.id (next answer) i e key := by
    rw [hw]
    rintro i e key hi hc hs (hadded | hdue | hover)
    · exact .inl hadded.cons
    · exact (hdue.answered htrue hc hi).imp_right .inl
    · exact .inr (hover.answered ho.keyed htrue hr hlisting hs)
  -- Between two events its requests leave the readers alone.
  have between (hr : r.IsRoutine) (hlisting : r = .list → IsListing (.ask r next))
      (hnext : (next answer).Only Request.IsListless) :
      Reads (⟨w, some ⟨t.id, r, answer⟩⟩ :: past) (w₁.setWork t.id (next answer)) reader
        { t with work := next answer } := by
    have hsub : r ≠ .subscribe := by
      rintro rfl
      exact hr
    have hrec : ∀ reader, r ≠ .receive reader := by
      rintro reader rfl
      exact hr
    have hreaders : w₁.readers = w.readers := attempt_readers hsub hrec ha
    refine h.advance ho hadv (unsubscribed hsub) (.inr (.inl hnext)) (fun q hq => ?_)
      (met hsub hlisting)
    have hq : (reader, q) ∈ w₁.readers := hq
    exact ⟨q, hreaders ▸ hq, fun i hle hlt => absurd hlt (Nat.not_lt_of_le hle)⟩
  rcases h.work with hread | hlistless | hlisting
  · obtain ⟨next', hnext, hevent, hlagged⟩ := Controller.reader_next reader
    cases hw.symm.trans (hread.trans hnext)
    obtain ⟨place, place', hl, hn, rfl⟩ := attempt_receive ha
    refine h.advance ho hadv (unsubscribed nofun) (.inr ?_) (fun q hq => ?_) (met nofun nofun)
    · cases answer with
      | event e => exact .inl (hevent e).1
      | lagged missed => exact .inr (hlagged missed)
    · obtain rfl := mem_setReader hq
      exact ⟨place, mem_of_lookup hl, fun i hle hlt =>
        covered_receive hevent hlagged hl hn rfl hle hlt⟩
  · rw [hw] at hlistless
    exact between hlistless.1.1 (fun hlist => absurd hlist hlistless.1.2) (hlistless.2 answer)
  · rw [hw] at hlisting
    have ⟨_, hnext, _, hlistless⟩ := hlisting
    cases hnext
    exact between trivial (fun _ => hlisting) (hlistless answer)

/-! ## Histories -/

/-- A step or an interlude without a question. -/
theorem Followed.of_silent (h : Followed past w) (ho : Ordered past w) (hadv : Advances w w')
    (hreaders : w'.readers = w.readers)
    (ht : ∀ u ∈ w'.tasks, u ∈ w.tasks ∨ (∀ reader, readerTask? reader past ≠ some u.id) ∨
      ∃ t ∈ w.tasks, t.work = .done none ∧ u = { t with work := t.round }) :
    Followed (⟨w, none⟩ :: past) w' := by
  have hsub : ∀ reader, ¬IsSubscription reader ⟨w, none⟩ := fun _ ⟨_, e⟩ => nomatch e
  have old : ∀ reader place, (reader, place) ∈ w'.readers → (reader, place) ∈ w.readers :=
    fun _ _ hplace => hreaders ▸ hplace
  refine ⟨fun reader hnone place hplace s hs hsub' => ?_, fun u hu reader hr => ?_⟩
  · rcases List.mem_cons.1 hs with rfl | hs
    · exact absurd hsub' (hsub reader)
    · exact h.waiting hnone place (old reader place hplace) s hs hsub'
  · rcases ht u hu with hu | hnone | ⟨t, ht, hw, rfl⟩
    · exact (h.tasks hu reader hr).of_idle ho hadv (hsub reader) (fun _ e => by cases e)
        (old reader)
    · exact absurd hr (hnone reader)
    · have hreads := h.tasks ht reader hr
      refine hreads.advance ho hadv (hsub reader) (.inl hreads.round)
        (fun q hq => ⟨q, old reader q hq, fun _ hle hlt => absurd hlt (Nat.not_lt_of_le hle)⟩)
        fun i e key _ _ _ hmet => ?_
      rw [hw] at hmet
      exact hmet.of_done

/-- What an answer to a task leaves of the places of another reader. -/
theorem mem_readers_answered (hwarranted : Warranted past w) (ht : t ∈ w.tasks)
    {next : r.Answer → Round} (hw : t.work = .ask r next)
    (ha : w.attempt t.id r = some (answer, w₁)) {place : Nat}
    (hreader : readerTask? reader past ≠ some t.id) (hplace : (reader, place) ∈ w₁.readers) :
    (reader, place) ∈ w.readers ∨
      IsSubscription reader ⟨w, some ⟨t.id, r, answer⟩⟩ ∧ reader = w.nextId ∧
        place = w.cluster.store.log.size := by
  by_cases hsub : r = .subscribe
  · subst hsub
    cases ha
    refine (List.mem_append.1 hplace).imp_right fun hnew => ?_
    obtain ⟨rfl, rfl⟩ := Prod.mk.inj (List.mem_singleton.1 hnew)
    exact ⟨⟨t.id, rfl⟩, rfl, rfl⟩
  by_cases hrec : ∃ other, r = .receive other
  · obtain ⟨other, rfl⟩ := hrec
    have hother : readerTask? other past = some t.id := hwarranted.permits ht hw answer
    obtain ⟨place₀, place₁, -, -, rfl⟩ := attempt_receive ha
    refine .inl (mem_setReader_of_ne ?_ hplace)
    rintro rfl
    exact hreader hother
  · exact .inl (attempt_readers hsub (fun i e => hrec ⟨i, e⟩) ha ▸ hplace)

theorem opener?_of_isSubscription (hm : m ∈ past) (h : IsSubscription reader m) :
    opener? reader past ≠ none := by
  obtain ⟨task, hx⟩ := h
  intro hnone
  have := List.findSome?_eq_none_iff.1 hnone m hm
  simp [hx, Exchange.opener?] at this

theorem Followed.waiting_answered (h : Followed past w) (ho : Ordered past w)
    (hwarranted : Warranted past w) (ht : t ∈ w.tasks) {next : r.Answer → Round}
    (hw : t.work = .ask r next) (ha : w.attempt t.id r = some (answer, w₁))
    (hnone : readerTask? reader past = none) {place : Nat} (hplace : (reader, place) ∈ w₁.readers)
    {s : Moment} (hs : s ∈ (⟨w, some ⟨t.id, r, answer⟩⟩ :: past : List Moment))
    (hsub : IsSubscription reader s) : place ≤ s.world.cluster.store.log.size := by
  have hreader : readerTask? reader past ≠ some t.id := hnone ▸ nofun
  rcases mem_readers_answered hwarranted ht hw ha hreader hplace with hold | ⟨-, rfl, rfl⟩
  · rcases List.mem_cons.1 hs with rfl | hs
    · exact (ho.readers hold).2
    · exact h.waiting hnone place hold s hs hsub
  · rcases List.mem_cons.1 hs with rfl | hs
    · exact Nat.le_refl _
    · exact absurd (hwarranted.unborn (Nat.le_refl _)).1 (opener?_of_isSubscription hs hsub)

theorem Followed.tasks_answered (h : Followed past w) (ho : Ordered past w)
    (hwarranted : Warranted past w) (ht : t ∈ w.tasks) {next : r.Answer → Round}
    (hw : t.work = .ask r next) (ha : w.attempt t.id r = some (answer, w₁))
    (hu : u ∈ (w₁.setWork t.id (next answer)).tasks)
    (hr : readerTask? reader (⟨w, some ⟨t.id, r, answer⟩⟩ :: past) = some u.id) :
    Reads (⟨w, some ⟨t.id, r, answer⟩⟩ :: past) (w₁.setWork t.id (next answer)) reader u := by
  have hadv := (attempt_advances ho.keyed ha).setWork t.id (next answer)
  have hlt := ho.tasks ht
  rcases ho.mem_answered ht ha hu with rfl | ⟨hu, hne⟩ | ⟨label, round, hrecruit, rfl⟩
  · rcases readerTask?_answered ha hr with hold | ⟨-, e, -⟩
    · exact (h.tasks ht reader hold).answered ho hw ha
    · exact absurd e (Nat.ne_of_lt hlt)
  · rcases readerTask?_answered ha hr with hold | ⟨-, e, -⟩
    · have hother : readerTask? reader past ≠ some t.id :=
        fun e => hne (Option.some.inj (hold.symm.trans e))
      have hborn : reader ≠ w.nextId := by
        rintro rfl
        cases (hwarranted.unborn (Nat.le_refl _)).2.symm.trans hold
      refine (h.tasks hu reader hold).of_idle ho hadv ?_ ?_ fun place hplace => ?_
      · rintro ⟨task, e⟩
        cases e
        cases ha
        exact hborn rfl
      · rintro x e
        cases e
        exact hne.symm
      · exact (mem_readers_answered hwarranted ht hw ha hother hplace).resolve_right
          fun hnew => hborn hnew.2.1
    · exact absurd e (Nat.ne_of_lt (ho.tasks hu))
  · rcases readerTask?_answered ha hr with hold | ⟨rfl, -, -⟩
    · exact absurd (hwarranted.hired hold) (Nat.lt_irrefl _)
    -- The task that was just started is where its reader began.
    · cases hrecruit
      have hnone : readerTask? reader past = none := (hwarranted.permits ht hw answer).2
      refine ⟨rfl, .inl rfl, fun place hplace s hs hsub i hi hlt => absurd hlt ?_⟩
      refine Nat.not_lt_of_le (Nat.le_trans ?_ hi)
      exact h.waiting_answered ho hwarranted ht hw ha hnone hplace hs hsub

theorem readerTask?_uncons (h : readerTask? reader (m :: past) = none) :
    readerTask? reader past = none := by
  have hnone := List.findSome?_eq_none_iff.1 h
  exact List.findSome?_eq_none_iff.2 fun n hn => hnone n (List.mem_cons_of_mem _ hn)

theorem History.followed (h : History past w) : Followed past w := by
  refine h.invariant ?_ ?_ ?_ ?_ ?_
  · exact fun _ _ _ => ⟨fun _ _ _ h => (nomatch h), fun _ h => (nomatch h)⟩
  · intro past w w' h ih hi
    refine ih.of_silent h.ordered (hi.advances h.ordered.keyed) hi.readers fun u hu => ?_
    refine (hi.joins.mem hu).imp_right ?_
    rintro ⟨label, round, -, rfl, -⟩
    exact .inl fun reader hr => Nat.lt_irrefl _ (h.warranted.hired hr)
  · intro past w t h ih ht hw
    have hadv : Advances w (w.setWork t.id t.round) :=
      .of_cluster h.ordered.keyed (Nat.le_refl _) (Nat.le_refl _) rfl
    refine ih.of_silent h.ordered hadv rfl fun u hu => ?_
    rcases h.ordered.mem_restarted ht hu with rfl | hu
    · exact .inr (.inr ⟨t, ht, hw, rfl⟩)
    · exact .inl hu
  · intro past w t ending h ih ht hw
    have hadv : Advances w (w.finish t ending) :=
      .of_cluster h.ordered.keyed (Nat.le_refl _) (Nat.le_refl _) rfl
    exact ih.of_silent h.ordered hadv rfl fun u hu => .inl (List.mem_filter.1 hu).1
  · intro past w t r next answer w₁ h ih ht hw ha
    refine ⟨fun reader hnone place hplace s hs hsub => ?_, fun u hu reader hr => ?_⟩
    · exact ih.waiting_answered h.ordered h.warranted ht hw ha (readerTask?_uncons hnone) hplace hs
        hsub
    · exact ih.tasks_answered h.ordered h.warranted ht hw ha hu hr

theorem History.readerTask?_of_awaited? (h : History past w) (ht : t ∈ w.tasks)
    (hw : t.awaited? = some reader) : readerTask? reader past = some t.id := by
  obtain ⟨next, hask⟩ := Task.ask_of_awaited? hw
  exact h.warranted.permits ht hask (.lagged 0)

/-- A reader's task that waits for the next event is at the start of its round. -/
theorem Reads.work_eq_reader (h : Reads past w reader t) (hw : t.awaited? = some reader) :
    t.work = Controller.reader reader := by
  obtain ⟨next, hask⟩ := Task.ask_of_awaited? hw
  rcases h.work with hread | hlistless | ⟨next', hlist, -⟩
  · exact hread
  · rw [hask] at hlistless
    exact hlistless.1.1.elim
  · cases hask.symm.trans hlist

/-- When a reader's task waits for the next event and there is none that it has not got, every
stored association that an event since the subscription concerns was added by it when that event was
there, unless this event or a later one that concerns the association was lost: the task missed it
because it fell behind, and since then its listings failed. -/
theorem added_of_consumed (h : History past w) (ht : t ∈ w.tasks) (hw : t.awaited? = some reader)
    {place : Nat} (hplace : (reader, place) ∈ w.readers)
    (hall : w.cluster.store.log.next? place = none) {s : Moment} (hs : s ∈ past)
    (hsub : IsSubscription reader s) (hi : s.world.cluster.store.log.size ≤ i)
    (he : w.cluster.store.log.events[i]? = some e) (hc : Concerned past w i e key)
    (hstored : w.Stores key) : AddedSince past t.id i key ∨ LostFrom past w t.id i key := by
  have hreads := h.followed.tasks ht reader (h.readerTask?_of_awaited? ht hw)
  have hwork := hreads.work_eq_reader hw
  -- From the last event back: a later event about the association itself counts for this one too.
  induction hn : w.cluster.store.log.size - i using Nat.strongRecOn generalizing i e with
  | ind n ih =>
    have hlt : i < w.cluster.store.log.size := EventLog.succ_le_size he
    have hle : i < place := Nat.lt_of_lt_of_le hlt (EventLog.size_le_of_next? hall)
    rcases hreads.covered hplace s hs hsub i hi hle e key he hc hstored with
      (hadded | hdue | hover) | ⟨j, e', hj, he', hkind, hkey⟩
    · exact .inl hadded
    · rw [hwork] at hdue
      exact absurd hdue not_due_reader
    · rw [hwork] at hover
      exact .inr ⟨i, e, Nat.le_refl _, he, hc, hover.lost fun hsweeps => hsweeps⟩
    · have hij : i ≤ j := Nat.le_of_succ_le hj
      have hlater := ih (w.cluster.store.log.size - j) (by omega) (Nat.le_trans hi hij) he'
        (.inl ⟨hkind, hkey⟩) rfl
      exact hlater.imp (·.mono hij) (·.mono hij)

theorem exists_isSubscription (h : ∃ m ∈ past, (m.exchange?.bind (·.opener? reader)).isSome ∧
    m.world.cluster.store.log.size = i) :
    ∃ m ∈ past, IsSubscription reader m ∧ m.world.cluster.store.log.size = i := by
  obtain ⟨m, hm, hopen, hsize⟩ := h
  obtain ⟨task, hopen⟩ := Option.isSome_iff_exists.1 hopen
  obtain ⟨x, hx, hx'⟩ := Option.bind_eq_some_iff.1 hopen
  unfold Exchange.opener? at hx'
  split at hx'
  next =>
    split at hx'
    next e => exact ⟨m, hm, ⟨_, e ▸ hx⟩, hsize⟩
    next => cases hx'
  next => cases hx'

/-- The log keeps one event only, and there are two changes before the reader looks: it falls
behind, lists, and adds the association that the lost event was about. -/
theorem added_of_consumed_lagged :
    let a : Association := ⟨.new ⟨"ns", "a"⟩, ⟨⟨"ns", "es"⟩, ⟨"ns", "kb"⟩⟩, .unknown⟩
    let w₀ := new {} 1 .epoch
    let r₀ := play (List.replicate 10 1) ([⟨w₀, none⟩], (w₀.spawn none (Controller.run {})).2)
    let w₁ := { r₀.2 with cluster := r₀.2.cluster.edit (.apply (.association a)) }
    let w₂ := { w₁ with
      cluster := w₁.cluster.edit (.apply (.elasticsearch ⟨.new ⟨"ns", "es"⟩, default⟩)) }
    let r := play (List.replicate 10 3) (⟨w₁, none⟩ :: ⟨r₀.2, none⟩ :: r₀.1, w₂)
    ∃ t ∈ r.2.tasks, t.awaited? = some 2 ∧ r.2.cluster.store.log.next? 2 = none ∧
      AddedSince r.1 t.id 0 a.key := by
  intro a w₀ r₀ w₁ w₂ r
  have h₀ : History r₀.1 r₀.2 := History.play
    (r := ([⟨w₀, none⟩], (w₀.spawn none (Controller.run {})).2))
    ((History.new ..).other (.spawn none (.run {}))) _
  have h₂ : History (⟨w₁, none⟩ :: ⟨r₀.2, none⟩ :: r₀.1) w₂ := (h₀.other (.edit _)).other (.edit _)
  have h : History r.1 r.2 := History.play (r := (_, w₂)) h₂ _
  obtain ⟨t, ht, hw⟩ : ∃ t ∈ r.2.tasks, t.awaited? = some 2 := by decide +kernel
  obtain ⟨s, hs, hsub, hsize⟩ : ∃ s ∈ r.1, IsSubscription 2 s ∧
      s.world.cluster.store.log.size = 0 := exists_isSubscription (by decide +kernel)
  obtain ⟨b, hb⟩ : r.2.Stores a.key := Option.isSome_iff_exists.1 (by decide +kernel)
  have hall : r.2.cluster.store.log.next? 2 = none := by decide +kernel
  have hplace : (2, 2) ∈ r.2.readers := by decide +kernel
  have he : r.2.cluster.store.log.events[0]? = some ⟨.association, a.key, .applied⟩ := by
    decide +kernel
  have hkept : ¬LostFrom r.1 r.2 t.id 0 a.key := by
    rintro ⟨-, -, -, -, -, later, m, earlier, hpast, -, ⟨n, hn, error, hx⟩, -⟩
    have hnone : ∀ m ∈ r.1, m.exchange?.bind Exchange.listError? = none := by decide +kernel
    have hn := hnone n (hpast ▸ List.mem_append_left _ hn)
    rw [hx] at hn
    cases hn
  refine ⟨t, ht, hw, hall, Or.resolve_right ?_ hkept⟩
  exact added_of_consumed h ht hw hplace hall hs hsub (Nat.le_of_eq hsize) he (.inl ⟨rfl, rfl⟩)
    ⟨b, hb⟩

/-- The same, but the listing fails: the reader has got all there is, the association is stored, and
nobody has added it or is going to. -/
theorem change_lost :
    let a : Association := ⟨.new ⟨"ns", "a"⟩, ⟨⟨"ns", "es"⟩, ⟨"ns", "kb"⟩⟩, .unknown⟩
    let w₀ := new {} 1 .epoch
    let r₀ := play (List.replicate 10 1) ([⟨w₀, none⟩], (w₀.spawn none (Controller.run {})).2)
    let w₁ := { r₀.2 with cluster := r₀.2.cluster.edit (.apply (.association a)) }
    let w₂ := { w₁ with
      cluster := w₁.cluster.edit (.apply (.elasticsearch ⟨.new ⟨"ns", "es"⟩, default⟩)) }
    let w₃ := { w₂ with listFault := some (.unavailable "down") }
    let r := play (List.replicate 10 3)
      (⟨w₂, none⟩ :: ⟨w₁, none⟩ :: ⟨r₀.2, none⟩ :: r₀.1, w₃)
    History r.1 r.2 ∧ (∃ t ∈ r.2.tasks, t.awaited? = some 2) ∧ r.2.readers = [(2, 2)] ∧
      r.2.cluster.store.log.next? 2 = none ∧
      (∃ s ∈ r.1, IsSubscription 2 s ∧ s.world.cluster.store.log.size = 0) ∧
      r.2.cluster.store.log.events[0]? = some ⟨.association, a.key, .applied⟩ ∧
      r.2.Stores a.key ∧ ∀ id i, ¬AddedSince r.1 id i a.key := by
  intro a w₀ r₀ w₁ w₂ w₃ r
  have h₀ : History r₀.1 r₀.2 := History.play
    (r := ([⟨w₀, none⟩], (w₀.spawn none (Controller.run {})).2))
    ((History.new ..).other (.spawn none (.run {}))) _
  have h₃ : History (⟨w₂, none⟩ :: ⟨w₁, none⟩ :: ⟨r₀.2, none⟩ :: r₀.1) w₃ :=
    ((h₀.other (.edit _)).other (.edit _)).other (.listFault _)
  refine ⟨History.play (r := (_, w₃)) h₃ _, by decide +kernel, by decide +kernel, by decide +kernel,
    exists_isSubscription (by decide +kernel), by decide +kernel,
    Option.isSome_iff_exists.1 (by decide +kernel), ?_⟩
  rintro id i ⟨m, hm, -, queued, hx⟩
  have hnone : ∀ m ∈ r.1, m.exchange?.bind Exchange.added? ≠ some a.key := by decide +kernel
  exact hnone m hm (by simp [hx, Exchange.added?])

end World

end ClusterLink
