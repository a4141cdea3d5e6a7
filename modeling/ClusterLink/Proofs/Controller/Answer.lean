import ClusterLink.Proofs.Controller.Vigil

/-! Each answer to a task keeps the controller attended. A key changes hands only with the requests
that take it, give it back or go on with its reconcile; every other request leaves all keys to
themselves. -/

namespace ClusterLink.World

open Reconcile Work

variable {Occurs : Key → Prop} {w w' w₁ : World} {phase : TaskId → Phase} {key : Key} {t : Task}
  {base a : Phase}

section Answer

variable {r : Request} {answer : r.Answer} {next : r.Answer → Round}

theorem Staffed.update_id (h : Staffed w phase) (ht : t ∈ w.tasks) :
    Function.update phase w.nextId base t.id = phase t.id :=
  Function.update_of_ne (Nat.ne_of_lt (h.numbered ht)) ..

/-- A key that the task does not hold and does not get is minded as before. -/
theorem Minded.other (h : Minded Occurs w phase key) (hstaffed : Staffed w phase)
    (ht : t ∈ w.tasks) (hg : Grows w w₁ base) (hold : ∀ s, phase t.id ≠ .holding key s)
    (ha : ∀ s, a ≠ .holding key s) (hq : key ∈ w.queue.processing → key ∈ w'.queue.processing)
    (hs : Spares key w w') :
    Minded Occurs w' (Function.update (Function.update phase w.nextId base) t.id a) key := by
  refine h.mono (fun i s => ?_) hq hs
  rw [← hg.holding_iff hstaffed i s]
  exact holding_update (fun s => hstaffed.update_id ht ▸ hold s) ha i s

/-- If the task holds the key, no other does. -/
theorem Minded.only (h : Minded Occurs w phase key) (hstaffed : Staffed w phase)
    (hg : Grows w w₁ base) {s : Stage} (hold : phase t.id = .holding key s) ⦃j : TaskId⦄
    ⦃s' : Stage⦄ (hj : Function.update phase w.nextId base j = .holding key s') : j = t.id :=
  h.alone ((hg.holding_iff hstaffed j s').1 hj) hold

theorem Served.answered (h : Served w phase) (hstaffed : Staffed w phase) (ht : t ∈ w.tasks)
    (hw : t.work = .ask r next) (ho : ¬r.Refused answer)
    (ha : w.attempt t.id r = some (answer, w₁)) (hturn : (phase t.id).Turn r answer a)
    (hsub : r ≠ .subscribe) (hnil : w.readers = [] → w₁.readers = [])
    (hreaders : ∀ id place, w.readers = [(id, place)] → place ≤ w.cluster.store.log.size →
      ∃ place', w₁.readers = [(id, place')] ∧ place' ≤ w₁.cluster.store.log.size) :
    Served (w₁.setWork t.id (next answer))
      (Function.update (Function.update phase w.nextId (recruit r)) t.id a) := by
  have hg := attempt_grows hturn.ne_cancel ha
  have old : ∀ {u}, u ∈ w.tasks → u.id ≠ t.id →
      Function.update (Function.update phase w.nextId (recruit r)) t.id a u.id = phase u.id :=
    fun hu e => (Function.update_of_ne e ..).trans (hstaffed.update_id hu)
  have starts : phase t.id ≠ .starting → ∀ i,
      Function.update (Function.update phase w.nextId (recruit r)) t.id a i = .starting ↔
        phase i = .starting := by
    intro hne i
    by_cases e : i = t.id
    · subst e
      rw [Function.update_self]
      exact ⟨fun e => absurd (e ▸ hturn).of_starting hne, fun e => absurd e hne⟩
    · rw [Function.update_of_ne e]
      by_cases e : i = w.nextId
      · rw [e, Function.update_self, hstaffed.unborn (Nat.le_refl _)]
        rcases hg.base with e | e <;> simp [e]
      · rw [Function.update_of_ne e]
  cases h with
  | @starting u _ hr hu hwu hn hp =>
    rcases hstaffed.eq_or_mem hg ht (next answer) hu with rfl | hu'
    · cases hw.symm.trans hwu
      exact absurd rfl hsub
    · have hne : phase t.id ≠ .starting := by
        intro e
        obtain rfl := hstaffed.unique ht hu ((hp t.id).1 e)
        cases hw.symm.trans hwu
        exact hsub rfl
      exact .starting (hnil hr) hu' hwu hn fun i => (starts hne i).trans (hp i)
  | @reading id place u hr hle hu hs hp =>
    obtain ⟨place', hr', hle'⟩ := hreaders id place hr hle
    have hp' := fun i hi => hp i ((starts (hp t.id) i).1 hi)
    have moved := mem_setWork_self (hg.mem ht) (next answer)
    by_cases e : u.id = t.id
    · obtain rfl := hstaffed.unique hu ht e
      rcases hs with hs | ⟨hround, hphase⟩
      · by_cases hstart : r = .startReader id
        · -- The task that reads is the one that was just started.
          subst hstart
          cases ha
          have hborn : (⟨w.nextId, none, Controller.reader id, Controller.reader id⟩ : Task) ∈
              ((w.spawn none (Controller.reader id)).2.setWork u.id (next w.nextId)).tasks :=
            mem_setWork.2 (.inr ⟨List.mem_append_right _ (List.mem_singleton_self _),
              Nat.ne_of_gt (hstaffed.numbered hu)⟩)
          refine .reading hr' hle' hborn (.inr ⟨rfl, ?_⟩) hp'
          rw [Function.update_of_ne (Nat.ne_of_gt (hstaffed.numbered hu)), Function.update_self]
          rfl
        · rw [hw] at hs
          exact .reading hr' hle' moved (.inl (Makes.step hs hstart ho)) hp'
      · refine .reading hr' hle' moved (.inr ⟨hround, ?_⟩) hp'
        rw [Function.update_self]
        exact (hphase ▸ hturn).of_reading
    · have hu' := (hstaffed.eq_or_mem hg ht (next answer) hu).resolve_left fun he => e (he ▸ rfl)
      exact .reading hr' hle' hu' (hs.imp_right fun hs => ⟨hs.1, (old hu e).trans hs.2⟩) hp'

/-- What the tasks are going to do for a key, after an answer to one of them. -/
theorem Attended.discharges (h : Attended Occurs w phase) (ht : t ∈ w.tasks)
    (hw : t.work = .ask r next) (ha : w.attempt t.id r = some (answer, w₁))
    (hturn : (phase t.id).Turn r answer a)
    (hmade : (r = .offer key ∨ ∃ delay, r = .addLater key delay) →
      (w₁.setWork t.id (next answer)).Roused key) :
    ∀ u ∈ w.tasks, Discharges key u.work (w₁.setWork t.id (next answer)) := by
  intro u hu
  have hg := attempt_grows hturn.ne_cancel ha
  have ho := attempt_not_refused h.sane.listFault ha
  rcases h.staffed.eq_or_mem hg ht (next answer) hu with rfl | hu'
  · rw [hw]
    have hf := attempt_framed hturn.ne_shutDown ha
    exact .of_answer h.sane.keyed ho (attempt_truthful ha) hf.cluster hmade
      (mem_setWork_self (hg.mem hu) (next answer)) rfl
  · exact .of_mem hu'

/-- A key that a request adds, or has added later, is roused. -/
theorem Attended.roused_of_made (h : Attended Occurs w phase) (ht : t ∈ w.tasks)
    (ha : w.attempt t.id r = some (answer, w₁)) (p : Round)
    (hm : r = .offer key ∨ ∃ delay, r = .addLater key delay) :
    (w₁.setWork t.id p).Roused key := by
  rcases hm with rfl | ⟨delay, rfl⟩
  · cases ha
    exact .of_dirty (h.sane.queue.mem_dirty_offer.2 (.inl rfl))
  · cases ha
    refine .of_offers (mem_setWork.2 (.inr ⟨List.mem_append_right _ (List.mem_singleton_self _),
      Nat.ne_of_gt (h.staffed.numbered ht)⟩)) ?_
    exact Controller.offers_addAt _ key

theorem Attended.passes (h : Attended Occurs w phase) (ht : t ∈ w.tasks)
    (hw : t.work = .ask r next) (ha : w.attempt t.id r = some (answer, w₁))
    (hturn : (phase t.id).Turn r answer a) (hq : key ∈ w.queue.dirty → key ∈ w₁.queue.dirty)
    (hr : ∀ x ∈ w.readers, x ∈ w₁.readers)
    (hlog : w₁.cluster.store.log.Extends w.cluster.store.log) :
    Passes key w (w₁.setWork t.id (next answer)) :=
  .of_kept hq hr hlog (h.discharges ht hw ha hturn (h.roused_of_made ht ha _))

theorem Sane.of_cluster (h : Sane Occurs w) (hc : w'.cluster = w.cluster) (hq : w'.queue.Sound)
    (hl : w'.listFault = none) (hs : w'.stopping = []) : Sane Occurs w' where
  queue := hq
  listFault := hl
  stopping := hs
  faults := hc ▸ h.faults
  keyed := hc ▸ h.keyed
  occurs := hc ▸ h.occurs

/-- A request that is about neither the store nor the log nor handing out keys. -/
theorem Attended.fed (h : Attended Occurs w phase) (ht : t ∈ w.tasks)
    (hw : t.work = .ask r next) (ha : w.attempt t.id r = some (answer, w₁))
    (hturn : (phase t.id).Turn r answer a) (hcall : ∀ q, r ≠ .call q) (hsub : r ≠ .subscribe)
    (hrec : ∀ id, r ≠ .receive id) (htake : r ≠ .take) (hfin : ∀ key, r ≠ .finish key) :
    Sane Occurs (w₁.setWork t.id (next answer)) ∧
      Served (w₁.setWork t.id (next answer))
        (Function.update (Function.update phase w.nextId (recruit r)) t.id a) ∧
      (∀ key, Spares key w (w₁.setWork t.id (next answer))) ∧
      w₁.queue.processing = w.queue.processing := by
  have hf := attempt_framed hturn.ne_shutDown ha
  have hfed := hf.queue htake hfin h.sane.queue
  have hcl := hf.cluster hcall
  have hr := hf.readers hsub hrec
  have ho := attempt_not_refused h.sane.listFault ha
  refine ⟨h.sane.of_cluster hcl hfed.sound (hf.listFault h.sane.listFault)
    (hf.stopping.trans h.sane.stopping), ?_, fun key => ?_, hfed.processing⟩
  · exact h.served.answered h.staffed ht hw ho ha hturn hsub hr.trans
      fun id place hr' hle => ⟨place, hr.trans hr', hcl ▸ hle⟩
  · refine (h.passes ht hw ha hturn (fun hd => hfed.dirty hd) (fun x hx => hr ▸ hx) ?_).spares hcl
    exact hcl ▸ .refl _

theorem Attended.plain (h : Attended Occurs w phase) (ht : t ∈ w.tasks)
    (hw : t.work = .ask r next) (ha : w.attempt t.id r = some (answer, w₁)) (hr : r.IsPlain)
    (hstaffed : Staffed (w₁.setWork t.id (next answer))
      (Function.update (Function.update phase w.nextId (recruit r)) t.id (phase t.id))) :
    Attended Occurs (w₁.setWork t.id (next answer))
      (Function.update (Function.update phase w.nextId (recruit r)) t.id (phase t.id)) := by
  have hturn : (phase t.id).Turn r answer (phase t.id) := .plain hr
  obtain ⟨hsane, hserved, hspares, hproc⟩ := h.fed ht hw ha hturn (by rintro _ rfl; exact hr)
    (by rintro rfl; exact hr) (by rintro _ rfl; exact hr) (by rintro rfl; exact hr)
    (by rintro _ rfl; exact hr)
  refine ⟨hsane, hstaffed, hserved, fun key => ?_⟩
  have hg := attempt_grows hturn.ne_cancel ha
  have hphase : Function.update (Function.update phase w.nextId (recruit r)) t.id (phase t.id) =
      Function.update phase w.nextId (recruit r) := by
    have hid : Function.update phase w.nextId (recruit r) t.id = phase t.id :=
      h.staffed.update_id ht
    rw [← hid]
    exact Function.update_eq_self ..
  rw [hphase]
  exact (h.minded key).mono (hg.holding_iff h.staffed) (fun hk => hproc ▸ hk) (hspares key)

end Answer

section Answers

variable {p : Phase} {k : Key} {s : Stage}

/-- Another look at the key that is held is arranged for. -/
theorem Attended.addLater (h : Attended Occurs w phase) (ht : t ∈ w.tasks) {delay : Duration}
    {next : Unit → Round} (hw : t.work = .ask (.addLater k delay) next)
    (ha : w.attempt t.id (.addLater k delay) = some ((), w₁)) (hp : phase t.id = .holding k s)
    (hstaffed : Staffed (w₁.setWork t.id (next ()))
      (Function.update (Function.update phase w.nextId .free) t.id
        (.holding k (.ended (.ok .done))))) :
    Attended Occurs (w₁.setWork t.id (next ()))
      (Function.update (Function.update phase w.nextId .free) t.id
        (.holding k (.ended (.ok .done)))) := by
  have hturn : (phase t.id).Turn (.addLater k delay) () (.holding k (.ended (.ok .done))) :=
    hp ▸ .addLater
  obtain ⟨hsane, hserved, hspares, hproc⟩ := h.fed ht hw ha hturn
    (fun _ e => nomatch e) (fun e => nomatch e) (fun _ e => nomatch e) (fun e => nomatch e)
    fun _ e => nomatch e
  have hg : Grows w w₁ .free := attempt_grows hturn.ne_cancel ha
  refine ⟨hsane, hstaffed, hserved, fun key => ?_⟩
  by_cases e : key = k
  · subst e
    have hroused : (w₁.setWork t.id (next ())).Roused key :=
      h.roused_of_made ht ha (next ()) (.inr ⟨delay, rfl⟩)
    exact .of_holding ((h.minded key).only h.staffed hg hp)
      (hproc ▸ ((h.minded key).held hp).1) trivial (.of_roused hroused _)
  · refine (h.minded key).other h.staffed ht hg (fun s' e' => e ?_) (fun s' e' => e ?_)
      (fun hk => hproc ▸ hk) (hspares key)
    · cases hp.symm.trans e'
      rfl
    · cases e'
      rfl

/-- The main task starts to read the log. -/
theorem Attended.subscribe (h : Attended Occurs w phase) (ht : t ∈ w.tasks) {id : ReaderId}
    {next : ReaderId → Round} (hw : t.work = .ask .subscribe next)
    (ha : w.attempt t.id .subscribe = some (id, w₁)) (hp : phase t.id = .starting)
    (hstaffed : Staffed (w₁.setWork t.id (next id))
      (Function.update (Function.update phase w.nextId .free) t.id .free)) :
    Attended Occurs (w₁.setWork t.id (next id))
      (Function.update (Function.update phase w.nextId .free) t.id .free) := by
  have hturn : (phase t.id).Turn .subscribe id .free := hp ▸ .subscribe
  have hg : Grows w w₁ .free := attempt_grows hturn.ne_cancel ha
  have hpass : ∀ key, Passes key w (w₁.setWork t.id (next id)) := by
    intro key
    refine h.passes ht hw ha hturn ?_ ?_ ?_ <;> cases ha
    · exact fun hd => hd
    · exact fun x hx => List.mem_append_left _ hx
    · exact .refl _
  have hmoved := mem_setWork_self (hg.mem ht) (next id)
  cases ha
  refine ⟨h.sane.of_cluster rfl h.sane.queue h.sane.listFault h.sane.stopping, hstaffed, ?_,
    fun key => ?_⟩
  · cases h.served with
    | reading _ _ _ _ hne => exact absurd hp (hne t.id)
    | @starting u _ hr hu hwu hn hst =>
      obtain rfl := h.staffed.unique ht hu ((hst t.id).1 hp)
      cases hw.symm.trans hwu
      have hr' : w.readers ++ [(w.nextId, w.cluster.store.log.size)] =
          [(w.nextId, w.cluster.store.log.size)] := by rw [hr, List.nil_append]
      refine .reading hr' (Nat.le_refl _) hmoved (.inl (hn _).2) fun i hi => ?_
      by_cases e : i = t.id
      · rw [e, Function.update_self] at hi
        cases hi
      · rw [Function.update_of_ne e] at hi
        by_cases e' : i = w.nextId
        · rw [e', Function.update_self] at hi
          cases hi
        · rw [Function.update_of_ne e'] at hi
          exact e ((hst i).1 hi)
  · refine (h.minded key).other h.staffed ht hg (fun s' e => ?_)
      (fun _ e => nomatch e) (fun hk => hk)
      ((hpass key).spares rfl)
    cases hp.symm.trans e

/-- A worker gives back the key that it holds. -/
theorem Attended.giveBack (h : Attended Occurs w phase) (ht : t ∈ w.tasks) {queued : Bool}
    {next : Bool → Round} (hw : t.work = .ask (.finish k) next)
    (ha : w.attempt t.id (.finish k) = some (queued, w₁))
    (hp : phase t.id = .holding k (.ended (.ok .done)))
    (hstaffed : Staffed (w₁.setWork t.id (next queued))
      (Function.update (Function.update phase w.nextId .free) t.id .free)) :
    Attended Occurs (w₁.setWork t.id (next queued))
      (Function.update (Function.update phase w.nextId .free) t.id .free) := by
  have hturn : (phase t.id).Turn (.finish k) queued .free := hp ▸ .finish
  have hg : Grows w w₁ .free := attempt_grows hturn.ne_cancel ha
  have ho := attempt_not_refused h.sane.listFault ha
  have hserved := h.served.answered h.staffed ht hw ho ha hturn fun e => nomatch e
  have hpass : ∀ key, Passes key w (w₁.setWork t.id (next queued)) := by
    intro key
    refine h.passes ht hw ha hturn ?_ ?_ ?_ <;> cases ha
    · intro hd
      have hd' : key ∈ (w.queue.finish k).2.dirty := (w.queue.finish_dirty k).symm ▸ hd
      exact hd'
    · exact fun x hx => hx
    · exact .refl _
  obtain ⟨hproc, -, hseen⟩ := (h.minded k).held hp
  cases ha
  refine ⟨h.sane.of_cluster rfl (h.sane.queue.finish hproc) h.sane.listFault h.sane.stopping,
    hstaffed, hserved (fun hr => hr) fun id place hr hle => ⟨place, hr, hle⟩, fun key => ?_⟩
  have hspares := (hpass key).spares rfl
  by_cases e : key = k
  · subst e
    exact .of_rest ((h.minded key).only h.staffed hg hp) (fun _ e => nomatch e)
      (hseen.mono hspares)
  · refine (h.minded key).other h.staffed ht hg (fun s' e' => e ?_)
      (fun _ e => nomatch e) (fun hk => ?_) hspares
    · cases hp.symm.trans e'
      rfl
    · have hk' : key ∈ (w.queue.finish k).2.processing :=
        (w.queue.finish_processing k).symm ▸ WorkQueue.mem_unmark.2 ⟨hk, e⟩
      exact hk'

/-- A worker asks for a key. -/
theorem Attended.take (h : Attended Occurs w phase) (ht : t ∈ w.tasks) {taken : Taken}
    {next : Taken → Round} (hw : t.work = .ask .take next)
    (ha : w.attempt t.id .take = some (taken, w₁)) (hp : phase t.id = .free)
    (hturn : Phase.Turn .free .take taken a)
    (hstaffed : Staffed (w₁.setWork t.id (next taken))
      (Function.update (Function.update phase w.nextId .free) t.id a)) :
    Attended Occurs (w₁.setWork t.id (next taken))
      (Function.update (Function.update phase w.nextId .free) t.id a) := by
  have hturn' : (phase t.id).Turn .take taken a := hp ▸ hturn
  have hg : Grows w w₁ .free := attempt_grows hturn'.ne_cancel ha
  have ho := attempt_not_refused h.sane.listFault ha
  have hserved := h.served.answered h.staffed ht hw ho ha hturn' fun e => nomatch e
  have hnone : ∀ {key} s', phase t.id ≠ .holding key s' := fun s' e => nomatch hp.symm.trans e
  have hdis : ∀ key, ∀ u ∈ w.tasks, Discharges key u.work (w₁.setWork t.id (next taken)) :=
    fun _ => h.discharges ht hw ha hturn' (h.roused_of_made ht ha _)
  have hsound := h.sane.queue.take
  rcases h.sane.queue.take_cases with e | ⟨key₀, rest, hfree, e⟩
  · simp only [attempt, e] at ha
    cases ha
    cases hturn with
    | plain hplain => exact hplain.elim
    | empty =>
      refine ⟨h.sane.of_cluster rfl h.sane.queue h.sane.listFault h.sane.stopping, hstaffed,
        hserved (fun hr => hr) fun id place hr hle => ⟨place, hr, hle⟩, fun key => ?_⟩
      have hpass : Passes key w (w.setWork t.id (next .empty)) :=
        .of_kept (fun hd => hd) (fun _ hx => hx) (.refl _) (hdis key)
      exact (h.minded key).other h.staffed ht hg hnone (fun _ e => nomatch e) (fun hk => hk)
        (hpass.spares rfl)
  · rw [e] at hsound
    simp only [attempt, e] at ha
    cases ha
    cases hturn with
    | plain hplain => exact hplain.elim
    | key =>
      refine ⟨h.sane.of_cluster rfl hsound h.sane.listFault h.sane.stopping, hstaffed,
        hserved (fun hr => hr) fun id place hr hle => ⟨place, hr, hle⟩, fun key => ?_⟩
      by_cases ek : key = key₀
      -- It was not in work, so no other task holds it.
      · subst ek
        refine .of_holding (fun j s' hj => ?_) (WorkQueue.mem_mark.2 (.inl rfl)) rfl
          fun _ _ => trivial
        exact absurd ((h.minded key).held ((hg.holding_iff h.staffed j s').1 hj)).1 hfree
      · refine (h.minded key).other h.staffed ht hg hnone (fun s' e' => ek ?_)
          (fun hk => WorkQueue.mem_mark.2 (.inr hk)) (Passes.spares ?_ rfl)
        · cases e'
          rfl
        · exact .of_kept (fun hd => WorkQueue.mem_unmark.2 ⟨hd, ek⟩) (fun _ hx => hx) (.refl _)
            (hdis key)

/-- The reader gets an event, or learns that it fell behind. -/
theorem Attended.receive (h : Attended Occurs w phase) (ht : t ∈ w.tasks) {id : ReaderId}
    {received : Received} {next : Received → Round} (hw : t.work = .ask (.receive id) next)
    (ha : w.attempt t.id (.receive id) = some (received, w₁)) (hp : phase t.id = .reading)
    (hheeds : Heeds (.receive id) received (next received))
    (hstaffed : Staffed (w₁.setWork t.id (next received))
      (Function.update (Function.update phase w.nextId .free) t.id .reading)) :
    Attended Occurs (w₁.setWork t.id (next received))
      (Function.update (Function.update phase w.nextId .free) t.id .reading) := by
  have hturn : (phase t.id).Turn (.receive id) received .reading := hp ▸ .receive
  have hg : Grows w w₁ .free := attempt_grows hturn.ne_cancel ha
  have ho := attempt_not_refused h.sane.listFault ha
  have hserved := h.served.answered h.staffed ht hw ho ha hturn fun e => nomatch e
  have hdis : ∀ key, ∀ u ∈ w.tasks, Discharges key u.work (w₁.setWork t.id (next received)) :=
    fun _ => h.discharges ht hw ha hturn (h.roused_of_made ht ha _)
  have hmoved := mem_setWork_self (hg.mem ht) (next received)
  obtain ⟨place, place', hl, hn, rfl⟩ := attempt_receive ha
  cases h.served with
  | starting hr =>
    rw [hr] at hl
    cases hl
  | @reading id₀ place₀ _ hr hle _ _ _ =>
    have hid : id = id₀ ∧ place₀ = place := by
      rw [hr, List.lookup_cons] at hl
      split at hl
      next e => exact ⟨beq_iff_eq.1 e, Option.some.inj hl⟩
      next => cases hl
    obtain ⟨rfl, rfl⟩ := hid
    have hr' : (w.setReader id place').readers = [(id, place')] := by
      simp [setReader, hr]
    have hplace : place' ≤ w.cluster.store.log.size := by
      rcases EventLog.next?_cases hn with ⟨-, hle'⟩ | ⟨e, -, he, rfl⟩
      · exact hle'
      · exact EventLog.succ_le_size he
    refine ⟨h.sane.of_cluster rfl h.sane.queue h.sane.listFault h.sane.stopping, hstaffed,
      hserved (fun e => nomatch hr.symm.trans e) fun i p hi _ => ?_, fun key => ?_⟩
    · cases hr.symm.trans hi
      exact ⟨place', hr', hplace⟩
    refine (h.minded key).other h.staffed ht hg (fun s' e => nomatch hp.symm.trans e)
      (fun _ e => nomatch e) (fun hk => hk) ?_
    rcases EventLog.next?_cases hn with ⟨⟨missed, rfl, -⟩, -⟩ | ⟨e, rfl, he, rfl⟩
    -- One who fell behind lists all associations, so every key that is stored is roused.
    · exact fun _ hnr => absurd (.of_sweeps hmoved hheeds) hnr
    · have unread : ∀ {kind r}, w.Unread kind r → (e.kind = kind ∧ e.key = r) ∨
          ((w.setReader id (place₀ + 1)).setWork t.id (next (.event e))).Unread kind r := by
        rintro kind r ⟨i, p, hm, htells⟩
        rw [hr] at hm
        cases List.mem_singleton.1 hm
        exact (htells.next he).imp_right fun hlater =>
          ⟨id, _, hr' ▸ List.mem_singleton_self _, hlater⟩
      have hreacts : Reacts e (next (.event e)) := hheeds
      refine Passes.spares ⟨fun hd => .of_dirty hd, fun hu => ?_, fun side r hu => ?_, hdis key⟩ rfl
      · rcases unread hu with ⟨hkind, rfl⟩ | hu
        · unfold Reacts at hreacts
          rw [hkind] at hreacts
          exact .of_offers hmoved hreacts
        · exact .of_unread hu
      · rcases unread hu with ⟨hkind, rfl⟩ | hu
        · refine .inr ⟨_, hmoved, ?_⟩
          unfold Reacts at hreacts
          rw [hkind] at hreacts
          cases side with
          | elasticsearch => exact hreacts
          | kibana => exact hreacts
        · exact .inl hu

/-- A reconcile makes a call. -/
theorem Attended.call (h : Attended Occurs w phase) (hnames : Side.NamesApart Occurs)
    (ht : t ∈ w.tasks) {q : Call} {answer : q.Answer} {next : q.Answer → Round}
    (hw : t.work = .ask (.call q) next) (ha : w.attempt t.id (.call q) = some (answer, w₁))
    (hp : phase t.id = .holding k s) {stages : q.Answer → Stage}
    (hv : s.view = .inr ⟨q, stages⟩)
    (hstaffed : Staffed (w₁.setWork t.id (next answer))
      (Function.update (Function.update phase w.nextId .free) t.id (.holding k (stages answer)))) :
    Attended Occurs (w₁.setWork t.id (next answer))
      (Function.update (Function.update phase w.nextId .free) t.id
        (.holding k (stages answer))) := by
  have hturn : (phase t.id).Turn (.call q) answer (.holding k (stages answer)) := hp ▸ .call hv
  have hg : Grows w w₁ .free := attempt_grows hturn.ne_cancel ha
  have ho := attempt_not_refused h.sane.listFault ha
  have hserved := h.served.answered h.staffed ht hw ho ha hturn fun e => nomatch e
  have hothers := fun u hu => h.staffed.eq_or_mem hg ht (next answer) (u := u) hu
  obtain ⟨hproc, habout, hseen⟩ := (h.minded k).held hp
  cases ha
  have hstep := Stage.step_of_view hv w.cluster
  have hcalled := w.cluster.answer_called q
  have hlogs := hcalled.logs h.sane.keyed
  have hocc : ∀ key a, (w.cluster.answer q).2.store.associations.find? key = some a →
      Occurs key := fun key a hst => (hcalled.stored hst).elim fun b hb => h.sane.occurs key b hb
  have hpass : ∀ key, Passes key w ({ w with cluster := (w.cluster.answer q).2 }.setWork t.id
      (next (w.cluster.answer q).1)) :=
    fun key => h.passes ht hw rfl hturn (fun hd => hd) (fun _ hx => hx) hlogs.kept
  refine ⟨⟨h.sane.queue, h.sane.listFault, h.sane.stopping, fun e he => ?_,
    h.sane.keyed.called hcalled, hocc⟩, hstaffed,
    hserved (fun hr => hr) (fun id place hr hle => ⟨place, hr, ?_⟩), fun key => ?_⟩
  · exact h.sane.faults e (w.cluster.fault?_answer q he)
  · exact Nat.le_trans hle hlogs.kept.size_le
  by_cases e : key = k
  -- The key itself: unless its reconcile has just changed the association, and so roused the key,
  -- what it has read so far is current, and so is what it has read now.
  · subst e
    refine .of_holding ((h.minded key).only h.staffed hg hp) hproc
      (hstep.about h.sane.keyed (h.sane.occurs key) habout) fun hs hn => ?_
    have hread := fun {kind r} => @Served.reads _ _ _ _ h.served (hpass key) rfl hs hn kind r
    obtain ⟨b, hb⟩ := hs.elim fun a hst => hcalled.stored hst
    have hcur := hseen ⟨b, hb⟩ ((hpass key).not_roused hs hn)
    refine hstep.current h.sane.keyed h.sane.faults (fun side r hu => .inl (hread hu))
      (fun hu => hn (.of_unread (hread hu))) habout (hcur.mono (.of_eq rfl rfl ?_))
    rintro side r (hu | ⟨u, hu, hm⟩) -
    · exact (hpass key).news _ _ hu
    · rcases hothers u hu with rfl | hu'
      · rw [hw] at hm
        exact hm.elim
      · exact .inr ⟨u, hu', hm⟩
  -- Another key: its watches have other names, and every change of an object is in the log.
  · refine (h.minded key).other h.staffed ht hg (fun s' e' => e ?_) (fun s' e' => e ?_)
      (fun hk => hk) ?_
    · cases hp.symm.trans e'
      rfl
    · cases e'
      rfl
    · refine (hpass key).spares_of_logs hlogs
        (fun hs hn _ _ => h.served.reads (hpass key) rfl hs hn) hcalled.secrets
        fun ⟨b, hb⟩ side => hstep.watch habout fun hk he => ?_
      exact e (hnames side key k (hocc key b hb) hk he)

end Answers

end ClusterLink.World
