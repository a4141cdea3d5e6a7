import ClusterLink.Reconcile.Basic

/-! The stages of a reconcile: at which call it stands and what it has learned so far. `Stage.view`
says what a stage asks and which stage follows each answer, `Stage.program` is the program that is
still to be run, and `reconcile_eq_program` that reconciling is the program of its first stage. So
a fact about all halfway reconciles is one case for each stage. -/

namespace ClusterLink

/-- The rank of the stage that makes a call, and of the later one for a secret. -/
def Call.turn : Call → Nat
  | .getAssociation _ => 13
  | .removeWatch .kibana _ => 12
  | .removeWatch .elasticsearch _ => 11
  | .updateAssociation _ => 10
  | .addWatch .elasticsearch _ => 9
  | .addWatch .kibana _ => 8
  | .getElasticsearch _ => 7
  | .getSecret _ => 5
  | .getKibana _ => 4
  | .updateKibana _ => 3
  | .updateAssociationStatus _ => 2

namespace Reconcile

/-- A place in the course of a reconcile. -/
inductive Stage where
  /-- Reads the association. -/
  | fetch (key : Key)
  /-- Writes the finalizer of the live association that was read. -/
  | register (a : Association)
  /-- Takes the watch on the Kibana instance of a deleted association away. -/
  | unwatchKibana (key : Key) (a : Association)
  /-- Takes the watch on the cluster of a deleted association away. -/
  | unwatchElasticsearch (key : Key) (a : Association)
  /-- Takes the finalizer off a deleted association. -/
  | release (a : Association)
  | watchElasticsearch (a : Association)
  | watchKibana (a : Association)
  | readElasticsearch (a : Association)
  | readUsers (a : Association) (es : Elasticsearch)
  | readCa (a : Association) (es : Elasticsearch) (password : String)
  | readKibana (a : Association) (expected : Backend)
  /-- Writes a Kibana instance that has its new configuration already. -/
  | configure (a : Association) (kb : Kibana)
  /-- Writes a status, which came with an error or without. -/
  | storeStatus (a : Association) (new : Status) (error : Option ReconcileError)
  | ended (outcome : Outcome)

/-- The association with the finalizer of its watches. -/
def marked (a : Association) : Association :=
  { a with metadata := a.metadata.addFinalizer watchFinalizerName }

/-- The association without the finalizer of its watches. -/
def unmarked (a : Association) : Association :=
  { a with metadata := a.metadata.removeFinalizer watchFinalizerName }

@[simp] theorem key_marked (a : Association) : (marked a).key = a.key := by
  unfold marked Metadata.addFinalizer
  split <;> rfl

theorem version_marked (a : Association) :
    (marked a).metadata.version = a.metadata.version := by
  unfold marked Metadata.addFinalizer
  split <;> rfl

theorem isPaused_marked (a : Association) :
    (marked a).metadata.isPaused = a.metadata.isPaused := by
  unfold marked Metadata.addFinalizer
  split <;> rfl

theorem isBeingDeleted_marked (a : Association) :
    (marked a).metadata.isBeingDeleted = a.metadata.isBeingDeleted := by
  unfold marked Metadata.addFinalizer
  split <;> rfl

theorem mem_finalizers_marked (a : Association) :
    watchFinalizerName ∈ (marked a).metadata.finalizers := by
  unfold marked Metadata.addFinalizer
  split
  next h => exact List.contains_iff_mem.1 h
  next => simp

theorem marked_of_hasFinalizer {a : Association}
    (h : a.metadata.hasFinalizer watchFinalizerName) : marked a = a := by
  have hm : a.metadata.addFinalizer watchFinalizerName = a.metadata := if_pos h
  rw [marked, hm]

/-! ## The finalizer of the watches -/

theorem handle_of_deleted {a : Association} (hd : a.metadata.isBeingDeleted)
    (hn : a.metadata.hasFinalizer watchFinalizerName) (key : Key) :
    Finalizer.handle a [watchFinalizer key] =
      .ask (.removeWatch .kibana (Watch.kibanaName key)) fun _ =>
        .ask (.removeWatch .elasticsearch (Watch.elasticsearchName key)) fun _ =>
          Finalizer.write (unmarked a) [watchFinalizerName] := by
  rw [Finalizer.handle, if_pos hd, Finalizer.runCleanups]
  exact if_pos hn

theorem handle_of_released {a : Association} (hd : a.metadata.isBeingDeleted)
    (hn : ¬a.metadata.hasFinalizer watchFinalizerName) (key : Key) :
    Finalizer.handle a [watchFinalizer key] = .done ⟨a, [], none⟩ := by
  rw [Finalizer.handle, if_pos hd, Finalizer.runCleanups]
  exact if_neg hn

theorem handle_of_marked {a : Association} (hd : ¬a.metadata.isBeingDeleted)
    (hn : a.metadata.hasFinalizer watchFinalizerName) (key : Key) :
    Finalizer.handle a [watchFinalizer key] = .done ⟨a, [], none⟩ := by
  have h : a.metadata.addFinalizer watchFinalizerName = a.metadata := if_pos hn
  rw [Finalizer.handle, if_neg hd]
  exact if_pos (congrArg Metadata.finalizers h)

theorem handle_of_unmarked {a : Association} (hd : ¬a.metadata.isBeingDeleted)
    (hn : ¬a.metadata.hasFinalizer watchFinalizerName) (key : Key) :
    Finalizer.handle a [watchFinalizer key] = Finalizer.write (marked a) [] := by
  have h : (a.metadata.addFinalizer watchFinalizerName).finalizers ≠ a.metadata.finalizers := by
    simp [Metadata.addFinalizer, hn]
  rw [Finalizer.handle, if_neg hd]
  exact if_neg h

namespace Stage

/-! ## What follows an answer -/

/-- After a status was computed: it is stored if it is new. -/
def reported (a : Association) (new : Status) (error : Option ReconcileError) : Stage :=
  if a.status = new then .ended ⟨.ofStatus new, error⟩ else .storeStatus a new error

/-- After an association was read. -/
def opened (key : Key) (a : Association) : Stage :=
  if a.metadata.isPaused then .ended (.ok .paused)
  else if a.metadata.isBeingDeleted then
    if a.metadata.hasFinalizer watchFinalizerName then .unwatchKibana key a else .ended (.ok .done)
  else if a.metadata.hasFinalizer watchFinalizerName then .watchElasticsearch a
  else .register a

/-- After the list of finalizers was written. -/
def finalized (stored : Association) : Stage :=
  if stored.metadata.isBeingDeleted then .ended (.ok .done) else .watchElasticsearch stored

/-- What a stage asks for, with the stage that each answer leads to; or the outcome. -/
def view : Stage → Outcome ⊕ (call : Call) × (call.Answer → Stage)
  | .ended o => .inl o
  | .fetch key => .inr ⟨.getAssociation key, fun
    | .ok a => opened key a
    | .error e => .ended (if e.isNotFound then .ok .done else .failed .done (.store e))⟩
  | .register a => .inr ⟨.updateAssociation (marked a), fun
    | .ok stored => finalized stored
    | .error e => .ended (.failed .retry (.finalizer (.store e)))⟩
  | .unwatchKibana key a => .inr ⟨.removeWatch .kibana (Watch.kibanaName key), fun _ =>
    .unwatchElasticsearch key a⟩
  | .unwatchElasticsearch key a => .inr ⟨.removeWatch .elasticsearch (Watch.elasticsearchName key),
    fun _ => .release a⟩
  | .release a => .inr ⟨.updateAssociation (unmarked a), fun
    | .ok stored => finalized stored
    | .error e => .ended (.failed .retry (.finalizer (.store e)))⟩
  | .watchElasticsearch a => .inr ⟨.addWatch .elasticsearch
      ⟨Watch.elasticsearchName a.key, a.spec.elasticsearch, a.key⟩, fun
    | .ok () => .watchKibana a
    | .error e => reported a .failed (some (.watch e))⟩
  | .watchKibana a => .inr ⟨.addWatch .kibana ⟨Watch.kibanaName a.key, a.spec.kibana, a.key⟩, fun
    | .ok () => .readElasticsearch a
    | .error e => reported a .failed (some (.watch e))⟩
  | .readElasticsearch a => .inr ⟨.getElasticsearch a.spec.elasticsearch, fun
    | .ok es => .readUsers a es
    | .error e =>
      if e.isNotFound then reported a .pending none else reported a .failed (some (.store e))⟩
  | .readUsers a es => .inr ⟨.getSecret es.usersSecret, fun
    | .ok users =>
      match users.text? Elasticsearch.kibanaUser with
      | some password => .readCa a es password
      | none =>
        reported a .pending (some (.missingCredential es.usersSecret Elasticsearch.kibanaUser))
    | .error e => reported a (statusOf (.store e)) (some (.store e))⟩
  | .readCa a es password => .inr ⟨.getSecret es.caSecret, fun
    | .ok ca => .readKibana a (backendFor es password ca)
    | .error e => reported a (statusOf (.store e)) (some (.store e))⟩
  | .readKibana a expected => .inr ⟨.getKibana a.spec.kibana, fun
    | .ok kb =>
      if kb.spec.backend = expected then reported a .established none
      else .configure a (kb.withBackend expected)
    | .error e => reported a (statusOf (.store e)) (some (.store e))⟩
  | .configure a kb => .inr ⟨.updateKibana kb, fun
    | .ok _ => reported a .established none
    | .error e => reported a .pending (some (.store e))⟩
  | .storeStatus a new error => .inr ⟨.updateAssociationStatus { a with status := new }, fun
    | .ok _ => .ended ⟨.ofStatus new, error⟩
    | .error e => .ended (.failed .retry (.store e))⟩

/-! ## The program of a stage -/

/-- How many calls a stage is away from the end at most. -/
def rank : Stage → Nat
  | .fetch _ => 13
  | .unwatchKibana .. => 12
  | .unwatchElasticsearch .. => 11
  | .release _ | .register _ => 10
  | .watchElasticsearch _ => 9
  | .watchKibana _ => 8
  | .readElasticsearch _ => 7
  | .readUsers .. => 6
  | .readCa .. => 5
  | .readKibana .. => 4
  | .configure .. => 3
  | .storeStatus .. => 2
  | .ended _ => 1

theorem rank_reported (a : Association) (new : Status) (error : Option ReconcileError) :
    (reported a new error).rank ≤ 2 := by
  unfold reported
  split <;> simp [rank]

theorem rank_opened (key : Key) (a : Association) : (opened key a).rank ≤ 12 := by
  unfold opened
  repeat' split
  all_goals simp [rank]

theorem rank_finalized (a : Association) : (finalized a).rank ≤ 9 := by
  unfold finalized
  split <;> simp [rank]

/-- Every call brings a reconcile nearer to its end. -/
theorem rank_lt_of_view {s : Stage} {call : Call} {next : call.Answer → Stage}
    (h : s.view = .inr ⟨call, next⟩) (answer : call.Answer) : (next answer).rank < s.rank := by
  cases s <;> simp only [view, reduceCtorEq, Sum.inr.injEq, Sigma.mk.injEq] at h
  all_goals obtain ⟨rfl, h⟩ := h; cases h
  case fetch key =>
    cases answer
    · simp [rank]
    · exact Nat.lt_succ_of_le (rank_opened ..)
  case register | release =>
    cases answer
    · simp [rank]
    · exact Nat.lt_succ_of_le (rank_finalized _)
  case unwatchKibana => exact Nat.lt_succ_self _
  case unwatchElasticsearch => exact Nat.lt_succ_self _
  case watchElasticsearch | watchKibana =>
    cases answer
    · exact Nat.lt_of_le_of_lt (rank_reported ..) (by simp [rank])
    · simp [rank]
  case readElasticsearch =>
    cases answer
    · simp only
      split <;> exact Nat.lt_of_le_of_lt (rank_reported ..) (by simp [rank])
    · simp [rank]
  case readUsers =>
    cases answer
    · exact Nat.lt_of_le_of_lt (rank_reported ..) (by simp [rank])
    · simp only
      split
      · simp [rank]
      · exact Nat.lt_of_le_of_lt (rank_reported ..) (by simp [rank])
  case readCa =>
    cases answer
    · exact Nat.lt_of_le_of_lt (rank_reported ..) (by simp [rank])
    · simp [rank]
  case readKibana =>
    cases answer
    · exact Nat.lt_of_le_of_lt (rank_reported ..) (by simp [rank])
    · simp only
      split
      · exact Nat.lt_of_le_of_lt (rank_reported ..) (by simp [rank])
      · simp [rank]
  case configure =>
    cases answer <;> exact Nat.lt_of_le_of_lt (rank_reported ..) (by simp [rank])
  case storeStatus => cases answer <;> exact Nat.lt_succ_self _

/-- The calls are made in the order of their turns, except that two secrets have one turn. -/
theorem turn_of_view {s : Stage} {call : Call} {next : call.Answer → Stage}
    (h : s.view = .inr ⟨call, next⟩) : call.turn = s.rank ∨ ∃ a es, s = .readUsers a es := by
  cases s <;> simp only [view, reduceCtorEq, Sum.inr.injEq, Sigma.mk.injEq] at h
  case readUsers a es => exact .inr ⟨a, es, rfl⟩
  all_goals obtain ⟨rfl, -⟩ := h; exact .inl rfl

/-- What is left to do at a stage. -/
def program (s : Stage) : Calls Outcome :=
  match _ : s.view with
  | .inl o => .done o
  | .inr ⟨call, next⟩ => .ask call fun answer => (next answer).program
termination_by s.rank
decreasing_by exact rank_lt_of_view ‹_› answer

theorem program_eq_done {s : Stage} {o : Outcome} (h : s.view = .inl o) :
    s.program = .done o := by
  rw [program]
  split <;> simp_all

/-- A stage whose program asks has a stage for every answer. -/
theorem view_of_program_eq_ask {s : Stage} {call : Call} {k : call.Answer → Calls Outcome}
    (h : s.program = .ask call k) : ∃ next : call.Answer → Stage,
      s.view = .inr ⟨call, next⟩ ∧ ∀ answer, k answer = (next answer).program := by
  rw [program] at h
  split at h
  · cases h
  · next hv =>
    cases h
    exact ⟨_, hv, fun _ => rfl⟩

theorem program_eq_ask {s : Stage} {call : Call} {next : call.Answer → Stage}
    {k : call.Answer → Calls Outcome} (h : s.view = .inr ⟨call, next⟩)
    (hk : ∀ answer, (next answer).program = k answer) : s.program = .ask call k := by
  rw [program]
  split
  · simp_all
  · next h' =>
    rw [h] at h'
    cases h'
    rw [funext hk]

@[simp] theorem program_ended (o : Outcome) : (ended o).program = .done o :=
  program_eq_done rfl

theorem program_reported (a : Association) (new : Status) (error : Option ReconcileError) :
    (reported a new error).program = Reconcile.storeStatus a new error := by
  unfold reported Reconcile.storeStatus
  split
  · exact program_ended _
  · refine program_eq_ask rfl fun answer => ?_
    cases answer <;> exact program_ended _

theorem program_readKibana (a : Association) (expected : Backend) :
    (readKibana a expected).program =
      (Reconcile.configure a expected).bind fun r => Reconcile.storeStatus a r.1 r.2 := by
  refine program_eq_ask rfl fun answer => ?_
  cases answer with
  | error e => exact program_reported ..
  | ok kb =>
    simp only [Program.bind_eq, Program.done_bind, Program.pure_eq]
    split
    · exact program_reported ..
    · refine program_eq_ask rfl fun answer => ?_
      cases answer <;> exact program_reported ..

theorem program_readUsers (a : Association) (es : Elasticsearch) :
    (readUsers a es).program = (expectedBackend es).bind fun
      | .error e => Reconcile.storeStatus a (statusOf e) (some e)
      | .ok expected =>
        (Reconcile.configure a expected).bind fun r => Reconcile.storeStatus a r.1 r.2 := by
  refine program_eq_ask rfl fun answer => ?_
  cases answer with
  | error e => exact program_reported ..
  | ok users =>
    simp only [Program.bind_eq, Program.done_bind, Program.pure_eq]
    cases users.text? Elasticsearch.kibanaUser with
    | none => exact program_reported ..
    | some password =>
      refine program_eq_ask rfl fun answer => ?_
      cases answer with
      | error e => exact program_reported ..
      | ok ca => exact program_readKibana ..

theorem program_watchElasticsearch (a : Association) :
    (watchElasticsearch a).program =
      (Reconcile.status a).bind fun r => Reconcile.storeStatus a r.1 r.2 := by
  refine program_eq_ask rfl fun answer => ?_
  cases answer with
  | error e => exact program_reported ..
  | ok _ =>
    refine program_eq_ask rfl fun answer => ?_
    cases answer with
    | error e => exact program_reported ..
    | ok _ =>
      refine program_eq_ask rfl fun answer => ?_
      cases answer with
      | error e =>
        simp only [Program.bind_eq, Program.done_bind, Program.pure_eq]
        split <;> exact program_reported ..
      | ok es =>
        refine (program_readUsers a es).trans ?_
        simp only [Program.bind_eq, Program.done_bind, Program.bind_assoc]
        congr 1
        funext r
        cases r <;> rfl

theorem program_finalized (stored : Association) :
    (finalized stored).program =
      if stored.metadata.isBeingDeleted then Program.done (.ok .done)
      else (Reconcile.status stored).bind fun r => Reconcile.storeStatus stored r.1 r.2 := by
  unfold finalized
  split
  · exact program_ended _
  · exact program_watchElasticsearch _

theorem program_opened (key : Key) (a : Association) :
    (opened key a).program = Reconcile.association key a := by
  unfold opened Reconcile.association
  split
  next => exact program_ended _
  next =>
    simp only [Program.bind_eq]
    split
    next hd =>
      split
      next hn =>
        rw [handle_of_deleted hd hn]
        refine program_eq_ask rfl fun _ => program_eq_ask rfl fun _ => ?_
        refine program_eq_ask rfl fun r => ?_
        cases r with
        | error e => exact program_ended _
        | ok stored => exact program_finalized stored
      next hn =>
        rw [handle_of_released hd hn, Program.done_bind]
        simp [hd]
    next hd =>
      split
      next hn =>
        rw [handle_of_marked hd hn, Program.done_bind]
        simpa [hd] using program_watchElasticsearch a
      next hn =>
        rw [handle_of_unmarked hd hn]
        refine program_eq_ask rfl fun r => ?_
        cases r with
        | error e => exact program_ended _
        | ok stored => exact program_finalized stored

end Stage

/-- Reconciling a key is the program of the stage that reads the association. -/
theorem reconcile_eq_program (key : Key) : reconcile key = (Stage.fetch key).program := by
  refine (Stage.program_eq_ask rfl fun answer => ?_).symm
  cases answer with
  | error e =>
    simp only [Program.done_bind]
    split <;> exact Stage.program_ended _
  | ok a => exact Stage.program_opened key a

end Reconcile

end ClusterLink
