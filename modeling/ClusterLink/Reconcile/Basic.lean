import ClusterLink.Reconcile.Decision
import ClusterLink.Reconcile.Finalizer

/-! Reconciling an association: its watches and its finalizer are kept in place, the configuration
derived from its cluster is written to its Kibana instance where it differs, and the status that
came of it is stored where it changed. The first thing that fails decides status and error. -/

namespace ClusterLink

/-- What came of reconciling a key. -/
structure Outcome where
  decision : Decision
  error : Option ReconcileError
  deriving DecidableEq

namespace Outcome

def ok (decision : Decision) : Outcome := ⟨decision, none⟩

def failed (decision : Decision) (error : ReconcileError) : Outcome := ⟨decision, some error⟩

/-- The error if there is one, and the decision otherwise. -/
def toExcept (o : Outcome) : Except ReconcileError Decision :=
  match o.error with
  | some e => .error e
  | none => .ok o.decision

end Outcome

namespace Reconcile

/-- The finalizer that takes an association's watches away. -/
def watchFinalizerName : String := "dynamic-watches"

/-- Takes the watches of an association away; it may run again without harm. -/
def watchFinalizer (association : Key) : Finalizer where
  name := watchFinalizerName
  cleanup := do
    let _ ← Program.request (Q := Call) (.removeWatch .kibana (Watch.kibanaName association))
    let _ ← Program.request (Q := Call)
      (.removeWatch .elasticsearch (Watch.elasticsearchName association))
    return .ok ()

/-- The configuration that points a Kibana instance at a cluster. -/
def backendFor (es : Elasticsearch) (password : String) (ca : Secret) : Backend where
  url := es.url
  inline := some ⟨Elasticsearch.kibanaUser, password⟩
  caCertSecret := some ca.key.name

/-- Reads the configuration that Kibana should have for a cluster. -/
def expectedBackend (es : Elasticsearch) : Calls (Except ReconcileError Backend) := do
  match ← Program.request (Q := Call) (.getSecret es.usersSecret) with
  | .error e => return .error (.store e)
  | .ok users =>
    match users.text? Elasticsearch.kibanaUser with
    | none => return .error (.missingCredential es.usersSecret Elasticsearch.kibanaUser)
    | some password =>
      match ← Program.request (Q := Call) (.getSecret es.caSecret) with
      | .error e => return .error (.store e)
      | .ok ca => return .ok (backendFor es password ca)

/-- What is missing is expected to come; any other failure is one. -/
def statusOf (e : ReconcileError) : Status := if e.isNotFound then .pending else .failed

/-- Adds the watches of an association on its cluster and its Kibana instance. -/
def addWatches (a : Association) : Calls (Except WatchError Unit) := do
  match ← Program.request (Q := Call) (.addWatch .elasticsearch
      ⟨Watch.elasticsearchName a.key, a.spec.elasticsearch, a.key⟩) with
  | .error e => return .error e
  | .ok () =>
    Program.request (Q := Call) (.addWatch .kibana
      ⟨Watch.kibanaName a.key, a.spec.kibana, a.key⟩)

/-- Gives the Kibana instance of an association its configuration, unless it has it already. -/
def configure (a : Association) (expected : Backend) : Calls (Status × Option ReconcileError) := do
  match ← Program.request (Q := Call) (.getKibana a.spec.kibana) with
  | .error e => return (statusOf (.store e), some (.store e))
  | .ok kb =>
    if kb.spec.backend = expected then return (.established, none)
    else
      match ← Program.request (Q := Call) (.updateKibana (kb.withBackend expected)) with
      | .error e => return (.pending, some (.store e))
      | .ok _ => return (.established, none)

/-- The status of an association, with the error that led to it. That the cluster does not exist is
no error. -/
def status (a : Association) : Calls (Status × Option ReconcileError) := do
  match ← addWatches a with
  | .error e => return (.failed, some (.watch e))
  | .ok () =>
    match ← Program.request (Q := Call) (.getElasticsearch a.spec.elasticsearch) with
    | .error e =>
      if e.isNotFound then return (.pending, none) else return (.failed, some (.store e))
    | .ok es =>
      match ← expectedBackend es with
      | .error e => return (statusOf e, some e)
      | .ok expected => configure a expected

/-- Stores a status that differs from that of the association. A write that fails takes the place of
an earlier error. -/
def storeStatus (a : Association) (new : Status) (error : Option ReconcileError) :
    Calls Outcome := do
  if a.status = new then return ⟨.ofStatus new, error⟩
  else
    match ← Program.request (Q := Call) (.updateAssociationStatus { a with status := new }) with
    | .error e => return .failed .retry (.store e)
    | .ok _ => return ⟨.ofStatus new, error⟩

/-- Reconciles an association that was read from the store. -/
def association (key : Key) (a : Association) : Calls Outcome := do
  if a.metadata.isPaused then return .ok .paused
  else
    let report ← Finalizer.handle a [watchFinalizer key]
    match report.error with
    | some e => return .failed .retry (.finalizer e)
    | none =>
      if report.association.metadata.isBeingDeleted then return .ok .done
      else
        let (new, error) ← status report.association
        storeStatus report.association new error

end Reconcile

def reconcile (key : Key) : Calls Outcome := do
  match ← Program.request (Q := Call) (.getAssociation key) with
  | .ok a => Reconcile.association key a
  | .error e => if e.isNotFound then return .ok .done else return .failed .done (.store e)

end ClusterLink
