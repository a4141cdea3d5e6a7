import ClusterLink.Proofs.Cluster.Content

/-! What decides the status of an association: the first of its dependencies that fails, alone. The
surroundings of a reconcile are any registries and any answers of the store; `Surroundings.failure?`
says of each dependency whether and how it fails there, `first?` which of them is the first, and
`reconcile_of_first_failure` what follows for status, error, decision and calls. -/

namespace ClusterLink.Reconcile

/-- The registries, and what the store answers to each call. No call is made twice in a reconcile
(`nodup_calls`), so one answer for each is as general as a store that changes its mind. -/
structure Surroundings where
  answers : (call : Call) → call.Answer
  watches : Watches

namespace Surroundings

/-- The answer to a call, with the registries after it. -/
def reply (s : Surroundings) : (call : Call) → Watches → call.Answer × Watches
  | .addWatch side watch, w =>
    match (w.get side).add watch with
    | .error e => (.error e, w)
    | .ok registry => (.ok (), w.set side registry)
  | .removeWatch side name, w =>
    let (removed, registry) := (w.get side).remove name
    (removed, w.set side registry)
  | call, w => (s.answers call, w)

/-- Runs a program from given registries: its result, and the calls that it made. -/
def course (s : Surroundings) : Calls α → Watches → α × List Call
  | .done a, _ => (a, [])
  | .ask call next, w =>
    let (answer, w) := s.reply call w
    let (a, calls) := s.course (next answer) w
    (a, call :: calls)

def run (s : Surroundings) (p : Calls α) : α × List Call := s.course p s.watches

end Surroundings

/-- What the status of an association depends on, one thing after the other. -/
inductive Dependency where
  | elasticsearchWatch
  | kibanaWatch
  | elasticsearch
  /-- The secret with the passwords of the cluster's internal users. -/
  | users
  /-- The entry of the user in whose name Kibana speaks to the cluster. -/
  | password
  /-- The secret with the certificate of the cluster's authority. -/
  | ca
  | kibana
  /-- The write that gives the instance its configuration. -/
  | configuration
  deriving DecidableEq

namespace Dependency

/-- The dependencies in their order. -/
def all : List Dependency :=
  [.elasticsearchWatch, .kibanaWatch, .elasticsearch, .users, .password, .ca, .kibana,
    .configuration]

/-- The status that the failure of a dependency leads to. -/
def status : Dependency → ReconcileError → Status
  | .elasticsearchWatch, _ | .kibanaWatch, _ => .failed
  | .password, _ | .configuration, _ => .pending
  | .elasticsearch, e | .users, e | .ca, e | .kibana, e =>
    match e with
    | .store (.notFound ..) => .pending
    | _ => .failed

/-- What a failure is reported as. That the cluster does not exist is no error. -/
def report? : Dependency → ReconcileError → Option ReconcileError
  | .elasticsearch, .store (.notFound ..) => none
  | _, e => some e

end Dependency

/-- The status after the first failure, or after none. -/
def statusAfter : Option (Dependency × ReconcileError) → Status
  | none => .established
  | some (d, e) => d.status e

/-- The error after the first failure, or after none. -/
def errorAfter : Option (Dependency × ReconcileError) → Option ReconcileError
  | none => none
  | some (d, e) => d.report? e

def failed? : Except ε α → Option ε
  | .error e => some e
  | .ok _ => none

namespace Surroundings

variable (s : Surroundings) (a : Association)

/-! ## What is found -/

def elasticsearch? : Option Elasticsearch :=
  (s.answers (.getElasticsearch a.spec.elasticsearch)).toOption

def users? : Option Secret :=
  (s.elasticsearch? a).bind fun es => (s.answers (.getSecret es.usersSecret)).toOption

def password? : Option String := (s.users? a).bind fun users => users.text? Elasticsearch.kibanaUser

def ca? : Option Secret :=
  (s.elasticsearch? a).bind fun es => (s.answers (.getSecret es.caSecret)).toOption

def kibana? : Option Kibana := (s.answers (.getKibana a.spec.kibana)).toOption

/-- The configuration that follows from cluster and secrets. -/
def expected? : Option Backend := do
  return backendFor (← s.elasticsearch? a) (← s.password? a) (← s.ca? a)

/-- The instance with its configuration, if it has another one. -/
def outdated? : Option Kibana := do
  let kb ← s.kibana? a
  let expected ← s.expected? a
  if kb.spec.backend = expected then none else some (kb.withBackend expected)

/-! ## What fails -/

/-- How a dependency fails, given those before it. -/
def failure? : Dependency → Option ReconcileError
  | .elasticsearchWatch =>
    (failed? ((s.watches.get .elasticsearch).add a.elasticsearchWatch)).map .watch
  | .kibanaWatch => (failed? ((s.watches.get .kibana).add a.kibanaWatch)).map .watch
  | .elasticsearch =>
    (failed? (s.answers (.getElasticsearch a.spec.elasticsearch))).map .store
  | .users => do
    let es ← s.elasticsearch? a
    (failed? (s.answers (.getSecret es.usersSecret))).map .store
  | .password => do
    let es ← s.elasticsearch? a
    let users ← s.users? a
    match users.text? Elasticsearch.kibanaUser with
    | none => some (.missingCredential es.usersSecret Elasticsearch.kibanaUser)
    | some _ => none
  | .ca => do
    let es ← s.elasticsearch? a
    (failed? (s.answers (.getSecret es.caSecret))).map .store
  | .kibana => (failed? (s.answers (.getKibana a.spec.kibana))).map .store
  | .configuration => do
    let kb ← s.outdated? a
    (failed? (s.answers (.updateKibana kb))).map .store

/-- The call that a dependency takes, if it takes one. -/
def call? : Dependency → Option Call
  | .elasticsearchWatch => some (.addWatch .elasticsearch a.elasticsearchWatch)
  | .kibanaWatch => some (.addWatch .kibana a.kibanaWatch)
  | .elasticsearch => some (.getElasticsearch a.spec.elasticsearch)
  | .users => (s.elasticsearch? a).map fun es => .getSecret es.usersSecret
  | .password => none
  | .ca => (s.elasticsearch? a).map fun es => .getSecret es.caSecret
  | .kibana => some (.getKibana a.spec.kibana)
  | .configuration => (s.outdated? a).map .updateKibana

/-- The first of some dependencies that fails, with its failure. -/
def first? (ds : List Dependency) : Option (Dependency × ReconcileError) :=
  ds.findSome? fun d => (s.failure? a d).map fun e => (d, e)

/-- The dependencies up to the first that fails, it included. -/
def reached (ds : List Dependency) : List Dependency :=
  ds.takeWhile (fun d => (s.failure? a d).isNone) ++
    (ds.find? fun d => (s.failure? a d).isSome).toList

variable {s a}

theorem first?_of_failure {d : Dependency} {e : ReconcileError} (h : s.failure? a d = some e)
    (ds : List Dependency) : s.first? a (d :: ds) = some (d, e) := by
  simp [first?, h]

theorem first?_of_success {d : Dependency} (h : s.failure? a d = none) (ds : List Dependency) :
    s.first? a (d :: ds) = s.first? a ds := by
  simp [first?, h]

theorem reached_of_failure {d : Dependency} {e : ReconcileError} (h : s.failure? a d = some e)
    (ds : List Dependency) : s.reached a (d :: ds) = [d] := by
  simp [reached, h]

theorem reached_of_success {d : Dependency} (h : s.failure? a d = none) (ds : List Dependency) :
    s.reached a (d :: ds) = d :: s.reached a ds := by
  simp [reached, h]

/-! ## The walk -/

variable (s a)

/-- How a reconcile ends once the first failure is known: with the calls that are still made. -/
def settled (first : Option (Dependency × ReconcileError)) : Outcome × List Call :=
  if a.status = statusAfter first then (⟨.ofStatus (statusAfter first), errorAfter first⟩, [])
  else
    let write := Call.updateAssociationStatus { a with status := statusAfter first }
    match s.answers write with
    | .ok _ => (⟨.ofStatus (statusAfter first), errorAfter first⟩, [write])
    | .error e => (.failed .retry (.store e), [write])

/-- What comes of walking through some dependencies. -/
def walk (ds : List Dependency) : Outcome × List Call :=
  ((s.settled a (s.first? a ds)).1,
    (s.reached a ds).filterMap (s.call? a) ++ (s.settled a (s.first? a ds)).2)

variable {s a}

theorem walk_of_failure {d : Dependency} {e : ReconcileError} (h : s.failure? a d = some e)
    (ds : List Dependency) :
    s.walk a (d :: ds) = ((s.settled a (some (d, e))).1,
      (s.call? a d).toList ++ (s.settled a (some (d, e))).2) := by
  rw [walk, first?_of_failure h, reached_of_failure h]
  cases hc : s.call? a d <;> simp [hc]

theorem walk_of_success {d : Dependency} (h : s.failure? a d = none) (ds : List Dependency) :
    s.walk a (d :: ds) = ((s.walk a ds).1, (s.call? a d).toList ++ (s.walk a ds).2) := by
  rw [walk, first?_of_success h, reached_of_success h]
  cases hc : s.call? a d <;> simp [hc, walk]

@[simp] theorem course_done (r : α) (w : Watches) :
    s.course (.done r : Calls α) w = (r, []) := rfl

theorem course_program {stage : Stage} {call : Call} {next : call.Answer → Stage}
    (h : stage.view = .inr ⟨call, next⟩) (w : Watches) :
    s.course stage.program w =
      ((s.course (next (s.reply call w).1).program (s.reply call w).2).1,
        call :: (s.course (next (s.reply call w).1).program (s.reply call w).2).2) := by
  rw [Stage.program_eq_ask h fun _ => rfl]
  rfl

theorem course_reported (first : Option (Dependency × ReconcileError)) (w : Watches) :
    s.course (Stage.reported a (statusAfter first) (errorAfter first)).program w
      = s.settled a first := by
  unfold Stage.reported settled
  split
  next => simp
  next =>
    rw [course_program rfl]
    simp only [reply]
    cases s.answers (.updateAssociationStatus { a with status := statusAfter first }) with
    | ok stored => simp
    | error e => simp

/-- A stage whose call fails ends the walk at its dependency. -/
theorem course_failure {stage : Stage} {call : Call} {next : call.Answer → Stage}
    (h : stage.view = .inr ⟨call, next⟩) {w w' : Watches} {answer : call.Answer}
    (hreply : s.reply call w = (answer, w')) {d : Dependency} {e : ReconcileError}
    (hcall : s.call? a d = some call) (hf : s.failure? a d = some e)
    (hnext : next answer = .reported a (d.status e) (d.report? e)) (ds : List Dependency) :
    s.course stage.program w = s.walk a (d :: ds) := by
  have hend : s.course (Stage.reported a (d.status e) (d.report? e)).program w'
      = s.settled a (some (d, e)) := course_reported (some (d, e)) w'
  rw [course_program h, hreply, hnext, hend, walk_of_failure hf, hcall]
  rfl

/-- A stage whose call succeeds leaves the rest of the walk to the next stage. -/
theorem course_success {stage : Stage} {call : Call} {next : call.Answer → Stage}
    (h : stage.view = .inr ⟨call, next⟩) {w w' : Watches} {answer : call.Answer}
    (hreply : s.reply call w = (answer, w')) {d : Dependency}
    (hcall : s.call? a d = some call) (hf : s.failure? a d = none) {ds : List Dependency}
    (hnext : s.course (next answer).program w' = s.walk a ds) :
    s.course stage.program w = s.walk a (d :: ds) := by
  rw [course_program h, hreply, hnext, walk_of_success hf, hcall]
  rfl

variable {es : Elasticsearch} {users : Secret} {password : String} {expected : Backend}
  {kb : Kibana} {w : Watches}

theorem course_configure (hkb : s.outdated? a = some kb) :
    s.course (Stage.configure a kb).program w = s.walk a [.configuration] := by
  have hcall : s.call? a .configuration = some (.updateKibana kb) := by simp [call?, hkb]
  cases h : s.answers (.updateKibana kb) with
  | error e =>
    have hf : s.failure? a .configuration = some (.store e) := by
      simp [failure?, hkb, h, failed?]
    exact course_failure rfl (congrArg (·, w) h) hcall hf rfl []
  | ok stored =>
    have hf : s.failure? a .configuration = none := by simp [failure?, hkb, h, failed?]
    exact course_success rfl (congrArg (·, w) h) hcall hf (course_reported none w)

theorem course_readKibana (hexpected : s.expected? a = some expected) :
    s.course (Stage.readKibana a expected).program w = s.walk a [.kibana, .configuration] := by
  cases h : s.answers (.getKibana a.spec.kibana) with
  | error e =>
    have hf : s.failure? a .kibana = some (.store e) := by simp [failure?, h, failed?]
    exact course_failure rfl (congrArg (·, w) h) rfl hf (by cases e <;> rfl) _
  | ok kb =>
    have hf : s.failure? a .kibana = none := by simp [failure?, h, failed?]
    have hkb : s.kibana? a = some kb := by simp [kibana?, h, Except.toOption]
    refine course_success rfl (congrArg (·, w) h) rfl hf ?_
    simp only
    split
    next hsame =>
      have hout : s.outdated? a = none := by simp [outdated?, hkb, hexpected, hsame]
      have hf : s.failure? a .configuration = none := by simp [failure?, hout]
      have hcall : s.call? a .configuration = none := by simp [call?, hout]
      rw [walk_of_success hf, hcall]
      exact course_reported none w
    next hother => exact course_configure (by simp [outdated?, hkb, hexpected, hother])

theorem course_readCa (hes : s.elasticsearch? a = some es)
    (hpassword : s.password? a = some password) :
    s.course (Stage.readCa a es password).program w
      = s.walk a [.ca, .kibana, .configuration] := by
  have hcall : s.call? a .ca = some (.getSecret es.caSecret) := by simp [call?, hes]
  cases h : s.answers (.getSecret es.caSecret) with
  | error e =>
    have hf : s.failure? a .ca = some (.store e) := by simp [failure?, hes, h, failed?]
    exact course_failure rfl (congrArg (·, w) h) hcall hf (by cases e <;> rfl) _
  | ok ca =>
    have hf : s.failure? a .ca = none := by simp [failure?, hes, h, failed?]
    have hexpected : s.expected? a = some (backendFor es password ca) := by
      simp [expected?, ca?, hes, hpassword, h, Except.toOption]
    exact course_success rfl (congrArg (·, w) h) hcall hf (course_readKibana hexpected)

theorem course_readUsers (hes : s.elasticsearch? a = some es) :
    s.course (Stage.readUsers a es).program w
      = s.walk a [.users, .password, .ca, .kibana, .configuration] := by
  have hcall : s.call? a .users = some (.getSecret es.usersSecret) := by simp [call?, hes]
  cases h : s.answers (.getSecret es.usersSecret) with
  | error e =>
    have hf : s.failure? a .users = some (.store e) := by simp [failure?, hes, h, failed?]
    exact course_failure rfl (congrArg (·, w) h) hcall hf (by cases e <;> rfl) _
  | ok users =>
    have hf : s.failure? a .users = none := by simp [failure?, hes, h, failed?]
    have husers : s.users? a = some users := by simp [users?, hes, h, Except.toOption]
    refine course_success rfl (congrArg (·, w) h) hcall hf ?_
    simp only
    cases hp : users.text? Elasticsearch.kibanaUser with
    | none =>
      have hf : s.failure? a .password
          = some (.missingCredential es.usersSecret Elasticsearch.kibanaUser) := by
        simp [failure?, hes, husers, hp]
      rw [walk_of_failure hf]
      exact course_reported (some (.password, _)) w
    | some password =>
      have hf : s.failure? a .password = none := by simp [failure?, hes, husers, hp]
      have hpassword : s.password? a = some password := by simp [password?, husers, hp]
      rw [walk_of_success hf]
      exact course_readCa hes hpassword

theorem course_readElasticsearch :
    s.course (Stage.readElasticsearch a).program w
      = s.walk a [.elasticsearch, .users, .password, .ca, .kibana, .configuration] := by
  cases h : s.answers (.getElasticsearch a.spec.elasticsearch) with
  | error e =>
    have hf : s.failure? a .elasticsearch = some (.store e) := by simp [failure?, h, failed?]
    exact course_failure rfl (congrArg (·, w) h) rfl hf (by cases e <;> rfl) _
  | ok es =>
    have hf : s.failure? a .elasticsearch = none := by simp [failure?, h, failed?]
    have hes : s.elasticsearch? a = some es := by simp [elasticsearch?, h, Except.toOption]
    exact course_success rfl (congrArg (·, w) h) rfl hf (course_readUsers hes)

theorem reply_addWatch_error {side : Side} {watch : Watch} {e : WatchError}
    (h : (w.get side).add watch = .error e) : s.reply (.addWatch side watch) w = (.error e, w) := by
  simp only [reply, h]

theorem reply_addWatch_ok {side : Side} {watch : Watch} {registry : Registry}
    (h : (w.get side).add watch = .ok registry) :
    s.reply (.addWatch side watch) w = (.ok (), w.set side registry) := by
  simp only [reply, h]

theorem course_watchKibana (hw : w.get .kibana = s.watches.get .kibana) :
    s.course (Stage.watchKibana a).program w
      = s.walk a [.kibanaWatch, .elasticsearch, .users, .password, .ca, .kibana,
        .configuration] := by
  cases h : (w.get .kibana).add a.kibanaWatch with
  | error e =>
    have hf : s.failure? a .kibanaWatch = some (.watch e) := by simp [failure?, ← hw, h, failed?]
    exact course_failure rfl (reply_addWatch_error h) rfl hf rfl _
  | ok registry =>
    have hf : s.failure? a .kibanaWatch = none := by simp [failure?, ← hw, h, failed?]
    exact course_success rfl (reply_addWatch_ok h) rfl hf course_readElasticsearch

/-- From the first watch on, a reconcile is the walk through all dependencies. -/
theorem course_watchElasticsearch :
    s.course (Stage.watchElasticsearch a).program s.watches = s.walk a Dependency.all := by
  cases h : (s.watches.get .elasticsearch).add a.elasticsearchWatch with
  | error e =>
    have hf : s.failure? a .elasticsearchWatch = some (.watch e) := by simp [failure?, h, failed?]
    exact course_failure rfl (reply_addWatch_error h) rfl hf rfl _
  | ok registry =>
    have hf : s.failure? a .elasticsearchWatch = none := by simp [failure?, h, failed?]
    exact course_success rfl (reply_addWatch_ok h) rfl hf
      (course_watchKibana (w := s.watches.set .elasticsearch registry) rfl)

/-! ## The whole reconcile -/

variable {key : Key} {b : Association} {names : List String} {calls : List Call}

theorem course_finalized (hb : b.metadata.isBeingDeleted = false) :
    s.course (Stage.finalized b).program s.watches = s.walk b Dependency.all := by
  rw [Stage.finalized, hb]
  exact course_watchElasticsearch

/-- The finalizer step of a live association: nothing if it has its finalizer, and otherwise the
write that gives it. -/
theorem run_handle_cases (hlive : a.metadata.isBeingDeleted = false)
    (h : s.run (Finalizer.handle a [watchFinalizer key]) = (⟨b, names, none⟩, calls)) :
    (a.metadata.hasFinalizer watchFinalizerName ∧ b = a ∧ calls = []) ∨
    (¬ a.metadata.hasFinalizer watchFinalizerName ∧
      s.answers (.updateAssociation (marked a)) = .ok b ∧
      calls = [.updateAssociation (marked a)]) := by
  have hlive' : ¬ a.metadata.isBeingDeleted := by simp [hlive]
  by_cases hn : a.metadata.hasFinalizer watchFinalizerName
  · rw [handle_of_marked hlive' hn] at h
    cases h
    exact .inl ⟨hn, rfl, rfl⟩
  · rw [handle_of_unmarked hlive' hn] at h
    cases hstored : s.answers (.updateAssociation (marked a)) with
    | error e => simp [run, Finalizer.write, Program.request, course, reply, hstored] at h
    | ok stored =>
      simp [run, Finalizer.write, Program.request, course, reply, hstored] at h
      exact .inr ⟨hn, h.1.1 ▸ rfl, h.2.symm⟩

theorem run_reconcile (hread : s.answers (.getAssociation key) = .ok a)
    (hpaused : a.metadata.isPaused = false) (hlive : a.metadata.isBeingDeleted = false)
    (hfinal : s.run (Finalizer.handle a [watchFinalizer key]) = (⟨b, names, none⟩, calls))
    (hb : b.metadata.isBeingDeleted = false) :
    s.run (reconcile key) = ((s.walk b Dependency.all).1,
      .getAssociation key :: (calls ++ (s.walk b Dependency.all).2)) := by
  have hopened : s.course (Stage.opened key a).program s.watches =
      ((s.walk b Dependency.all).1, calls ++ (s.walk b Dependency.all).2) := by
    rw [Stage.opened, hpaused, hlive]
    rcases run_handle_cases hlive hfinal with ⟨hn, rfl, rfl⟩ | ⟨hn, hstored, rfl⟩
    · rw [hn]
      exact course_watchElasticsearch
    · simp only [hn]
      rw [course_program rfl]
      simp only [reply, hstored, course_finalized hb]
      rfl
  rw [run, reconcile_eq_program, course_program rfl]
  simp only [reply, hread, hopened]

/-- A dependency is reached over those before it only, and none of them fails. -/
theorem failure?_of_mem_reached {d : Dependency} {before after : List Dependency}
    (h : d ∈ s.reached a (before ++ d :: after)) (hd : d ∉ before) :
    ∀ d' ∈ before, s.failure? a d' = none := by
  induction before with
  | nil => simp
  | cons d₀ before ih =>
    have hne : d ≠ d₀ := fun e => hd (e ▸ List.mem_cons_self)
    cases hf : s.failure? a d₀ with
    | some e =>
      rw [List.cons_append, reached_of_failure hf] at h
      exact absurd (List.mem_singleton.1 h) hne
    | none =>
      rw [List.cons_append, reached_of_success hf] at h
      have hrest := ih ((List.mem_cons.1 h).resolve_left hne) fun hm => hd (.tail _ hm)
      simpa [hf] using hrest

/-- The calls that are still made once the first failure is known. -/
theorem settled_calls (first : Option (Dependency × ReconcileError)) :
    (s.settled a first).2 = if a.status = statusAfter first then []
      else [.updateAssociationStatus { a with status := statusAfter first }] := by
  unfold settled
  split
  next => rfl
  next =>
    dsimp only
    split <;> rfl

theorem settled_stored {first : Option (Dependency × ReconcileError)}
    (h : a.status = statusAfter first ∨
      failed? (s.answers (.updateAssociationStatus { a with status := statusAfter first })) = none) :
    (s.settled a first).1 = ⟨.ofStatus (statusAfter first), errorAfter first⟩ := by
  unfold settled
  split
  next => rfl
  next hne =>
    replace h := h.resolve_left hne
    dsimp only
    split
    next => rfl
    next he => simp [he, failed?] at h

theorem settled_refused {first : Option (Dependency × ReconcileError)} {e : StoreError}
    (hne : a.status ≠ statusAfter first)
    (h : failed? (s.answers (.updateAssociationStatus { a with status := statusAfter first }))
      = some e) :
    (s.settled a first).1 = ⟨.afterDelay (.ofSeconds 10), some (.store e)⟩ := by
  unfold settled
  rw [if_neg hne]
  dsimp only
  split
  next hok => simp [hok, failed?] at h
  next he =>
    obtain rfl : _ = e := by simpa [he, failed?] using h
    rfl

/-- The instance is written for its configuration only, when everything before that is there. -/
theorem updateKibana_of_mem_walk {kb : Kibana}
    (h : Call.updateKibana kb ∈ (s.walk a Dependency.all).2) :
    s.outdated? a = some kb ∧ ∀ d ≠ .configuration, s.failure? a d = none := by
  have hsettled : ∀ first, Call.updateKibana kb ∉ (s.settled a first).2 := by
    intro first
    rw [settled_calls]
    split <;> simp
  rcases List.mem_append.1 h with h | h
  · obtain ⟨d, hd, hcall⟩ := List.mem_filterMap.1 h
    cases d <;> simp only [call?, Option.some.injEq, reduceCtorEq, Option.map_eq_some_iff,
      and_false, exists_false, Call.updateKibana.injEq, exists_eq_right] at hcall
    refine ⟨hcall, fun d hne => ?_⟩
    have hall : Dependency.all = [.elasticsearchWatch, .kibanaWatch, .elasticsearch, .users,
      .password, .ca, .kibana] ++ [.configuration] := rfl
    refine failure?_of_mem_reached (hall ▸ hd) (by decide) d ?_
    cases d <;> simp at hne ⊢
  · exact absurd h (hsettled _)

/-! ## No call is made twice -/

theorem turn_le (stage : Stage) (w : Watches) :
    ∀ call ∈ (s.course stage.program w).2, call.turn ≤ stage.rank := by
  induction stage using Stage.program.induct generalizing w with
  | case1 stage o hv => simp [Stage.program_eq_done hv]
  | case2 stage call next hv ih =>
    rw [course_program hv]
    intro c hc
    rcases List.mem_cons.1 hc with rfl | hc
    · rcases Stage.turn_of_view hv with h | ⟨a, es, rfl⟩
      · exact Nat.le_of_eq h
      · simp only [Stage.view, Sum.inr.injEq, Sigma.mk.injEq] at hv
        obtain ⟨rfl, -⟩ := hv
        simp [Call.turn, Stage.rank]
    · exact Nat.le_trans (ih _ _ c hc) (Nat.le_of_lt (Stage.rank_lt_of_view hv _))

theorem usersSecret_ne_caSecret (es : Elasticsearch) : es.usersSecret ≠ es.caSecret := by
  intro h
  have hname : es.key.name ++ "-elastic-internal-users" = es.key.name := congrArg Key.name h
  have hlength := congrArg String.length hname
  simp at hlength

theorem not_mem_of_rank_lt {stage : Stage} {call : Call} (h : stage.rank < call.turn)
    (w : Watches) : call ∉ (s.course stage.program w).2 :=
  fun hmem => Nat.not_lt.2 (turn_le stage w call hmem) h

/-- After the secret of the users that of the authority is read, and no secret after it. -/
theorem users_not_mem_rest {a : Association} {es : Elasticsearch}
    {next : Except StoreError Secret → Stage}
    (h : (Stage.readUsers a es).view = .inr ⟨.getSecret es.usersSecret, next⟩)
    (answer : Except StoreError Secret) (w : Watches) :
    Call.getSecret es.usersSecret ∉ (s.course (next answer).program w).2 := by
  have hreported (new : Status) (error : Option ReconcileError) :
      (Stage.reported a new error).rank < 5 :=
    Nat.lt_of_le_of_lt (Stage.rank_reported a new error) (by decide)
  cases h
  cases answer with
  | error e => exact not_mem_of_rank_lt (hreported ..) w
  | ok users =>
    dsimp only
    split
    next password hp =>
      rw [course_program rfl, List.mem_cons, not_or]
      refine ⟨fun heq => usersSecret_ne_caSecret es (Call.getSecret.inj heq), ?_⟩
      refine not_mem_of_rank_lt ?_ _
      split
      next => exact (by decide : 4 < 5)
      next => exact hreported ..
    next hp => exact not_mem_of_rank_lt (hreported ..) w

/-- No call is made twice in a reconcile. -/
theorem nodup_calls (stage : Stage) (w : Watches) : (s.course stage.program w).2.Nodup := by
  induction stage using Stage.program.induct generalizing w with
  | case1 stage o hv => simp [Stage.program_eq_done hv]
  | case2 stage call next hv ih =>
    rw [course_program hv, List.nodup_cons]
    refine ⟨fun hmem => ?_, ih _ _⟩
    rcases Stage.turn_of_view hv with h | ⟨a, es, rfl⟩
    · exact not_mem_of_rank_lt (h ▸ Stage.rank_lt_of_view hv _) _ hmem
    · obtain rfl : call = .getSecret es.usersSecret := by
        simp only [Stage.view, Sum.inr.injEq, Sigma.mk.injEq] at hv
        exact hv.1.symm
      exact users_not_mem_rest hv _ _ hmem

end Surroundings

open Surroundings

/-- **The first failing dependency alone decides.** A live association `a` that is not paused is
read, and its finalizer step leaves `b`. Whatever the registries hold and the store answers, the
reconcile makes the calls of the dependencies up to the first that fails and no others, and then
stores the status that follows from that failure, error or not, unless `b` has it already. An
instance is written only when everything else was found and its configuration differs. The error is
that of the failure, and the decision waits for a pending association; a status that cannot be
stored is the error itself, and is tried again. -/
theorem first_failure_decides {s : Surroundings} {key : Key} {a b : Association}
    {names : List String} {calls : List Call} (hread : s.answers (.getAssociation key) = .ok a)
    (hpaused : a.metadata.isPaused = false) (hlive : a.metadata.isBeingDeleted = false)
    (hfinal : s.run (Finalizer.handle a [watchFinalizer key]) = (⟨b, names, none⟩, calls))
    (hb : b.metadata.isBeingDeleted = false) :
    let first := s.first? b Dependency.all
    let new := statusAfter first
    let write := Call.updateAssociationStatus { b with status := new }
    let outcome := (s.run (reconcile key)).1
    let made := (s.run (reconcile key)).2
    made = .getAssociation key :: calls ++ (s.reached b Dependency.all).filterMap (s.call? b) ++
        (if b.status = new then [] else [write]) ∧
      (∀ kb, .updateKibana kb ∈ made →
        s.outdated? b = some kb ∧ ∀ d ≠ .configuration, s.failure? b d = none) ∧
      (b.status = new ∨ failed? (s.answers write) = none →
        outcome = ⟨if new = .pending then .afterDelay (.ofSeconds 10) else .done,
          errorAfter first⟩) ∧
      ∀ e, b.status ≠ new → failed? (s.answers write) = some e →
        outcome = ⟨.afterDelay (.ofSeconds 10), some (.store e)⟩ := by
  intro first new write outcome made
  have hrun := run_reconcile hread hpaused hlive hfinal hb
  have hmade : made = .getAssociation key :: (calls ++ (s.walk b Dependency.all).2) :=
    congrArg Prod.snd hrun
  have houtcome : outcome = (s.settled b first).1 := by
    show (s.run (reconcile key)).1 = _
    rw [hrun]
    rfl
  have hdecision : Decision.ofStatus new
      = if new = .pending then .afterDelay (.ofSeconds 10) else .done := by
    cases new <;> rfl
  refine ⟨?_, fun kb hkb => ?_, fun hstored => ?_, fun e hne hfails => ?_⟩
  · rw [hmade, walk, settled_calls]
    simp
    rfl
  · rw [hmade] at hkb
    have hcalls : Call.updateKibana kb ∉ calls := by
      rcases run_handle_cases hlive hfinal with ⟨-, -, rfl⟩ | ⟨-, -, rfl⟩ <;> simp
    refine updateKibana_of_mem_walk ?_
    simpa [hcalls] using hkb
  · rw [houtcome, settled_stored hstored, ← hdecision]
  · rw [houtcome, settled_refused hne hfails]

/-- The cluster does not exist, which is no error by itself, and the status cannot be stored: the
error is that of the write. -/
theorem first_failure_decides_of_refused_status :
    let a : Association :=
      marked ⟨.new ⟨"ns", "a"⟩, ⟨⟨"ns", "es1"⟩, ⟨"ns", "kb1"⟩⟩, .unknown⟩
    let missing := StoreError.notFound .elasticsearch ⟨"ns", "es1"⟩
    let down := StoreError.unavailable "down"
    let s : Surroundings := ⟨fun
      | .getAssociation _ => .ok a
      | .getElasticsearch _ => .error missing
      | .updateAssociation _ | .updateAssociationStatus _ | .getKibana _ | .updateKibana _
      | .getSecret _ => .error down
      | .addWatch .. => .ok ()
      | .removeWatch .. => true, .empty⟩
    s.answers (.getAssociation a.key) = .ok a ∧ a.metadata.isPaused = false ∧
      a.metadata.isBeingDeleted = false ∧
      s.run (Finalizer.handle a [watchFinalizer a.key]) = (⟨a, [], none⟩, []) ∧
      (s.first? a Dependency.all).map Prod.fst = some .elasticsearch ∧
      (s.run (reconcile a.key)).1 = ⟨.afterDelay (.ofSeconds 10), some (.store down)⟩ := by
  intro a missing down s
  have hfinal : s.run (Finalizer.handle a [watchFinalizer a.key]) = (⟨a, [], none⟩, []) := by
    rw [handle_of_marked (by decide) (by decide)]
    rfl
  have hread : s.answers (.getAssociation a.key) = .ok a := rfl
  have h := first_failure_decides hread (by decide) (by decide) hfinal (by decide)
  exact ⟨rfl, by decide, by decide, hfinal, by decide, h.2.2.2 down (by decide) (by decide)⟩

end ClusterLink.Reconcile
