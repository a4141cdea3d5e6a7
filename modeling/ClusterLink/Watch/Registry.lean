import ClusterLink.Key
import ClusterLink.Resource.Kind

/-! Watches by name: each says that a change of one object concerns another. There is a registry
for Elasticsearch clusters and one for Kibana instances. A watch replaces the one of its name. -/

namespace ClusterLink

/-- A watch: changes of `watched` concern `watcher`. -/
structure Watch where
  name : String
  watched : Key
  watcher : Key
  deriving DecidableEq

namespace Watch

/-- The name of the watch that an object keeps on its partner of a kind. -/
def nameFor (owner : Key) (kind : String) : String :=
  owner.space ++ "-" ++ owner.name ++ "-" ++ kind ++ "-watch"

/-- The name of an association's watch on its cluster. -/
def elasticsearchName (association : Key) : String := nameFor association "es"

/-- The name of an association's watch on its Kibana instance. -/
def kibanaName (association : Key) : String := nameFor association "kb"

end Watch

/-- Why a watch is refused. -/
inductive WatchError where
  | emptyName
  | incompleteWatched (name : String) (watched : Key)
  | incompleteWatcher (name : String) (watcher : Key)
  deriving DecidableEq

def WatchError.message : WatchError → String
  | .emptyName => "watch name must not be empty"
  | .incompleteWatched name watched =>
    "watch " ++ name ++ ": watched key " ++ watched.text ++ " is incomplete"
  | .incompleteWatcher name watcher =>
    "watch " ++ name ++ ": watcher key " ++ watcher.text ++ " is incomplete"

/-- The watches on objects of one kind, by name. -/
abbrev Registry := Dict String Watch

namespace Registry

/-- Adds a watch, or replaces the one of its name. -/
def add (r : Registry) (w : Watch) : Except WatchError Registry :=
  if w.name.isEmpty then .error .emptyName
  else if !w.watched.isComplete then .error (.incompleteWatched w.name w.watched)
  else if !w.watcher.isComplete then .error (.incompleteWatcher w.name w.watcher)
  else .ok (r.insert w.name w)

/-- Removes the watch of a name; the answer is whether there was one. -/
def remove (r : Registry) (name : String) : Bool × Registry :=
  (r.contains name, r.erase name)

/-- The watches, ordered by name. -/
def registrations (r : Registry) : List Watch := r.values

/-- The keys that a change of `watched` concerns, in increasing order and each once. -/
def watchersOf (r : Registry) (watched : Key) : List Key :=
  Key.sortUnique ((r.registrations.filter (·.watched = watched)).map Watch.watcher)

end Registry

/-- The registry that a watch belongs to. -/
inductive Side where
  | elasticsearch
  | kibana
  deriving DecidableEq, Repr

/-- The registry for a kind, if the kind has one. -/
def Side.ofKind? : Kind → Option Side
  | .elasticsearch => some .elasticsearch
  | .kibana => some .kibana
  | .association | .secret => none

def Side.kind : Side → Kind
  | .elasticsearch => .elasticsearch
  | .kibana => .kibana

/-- The registries of both kinds. -/
structure Watches where
  elasticsearch : Registry
  kibana : Registry
  deriving DecidableEq

namespace Watches

def empty : Watches := ⟨∅, ∅⟩

def get (w : Watches) : Side → Registry
  | .elasticsearch => w.elasticsearch
  | .kibana => w.kibana

def set (w : Watches) (side : Side) (r : Registry) : Watches :=
  match side with
  | .elasticsearch => { w with elasticsearch := r }
  | .kibana => { w with kibana := r }

/-- The number of watches in both registries. -/
def size (w : Watches) : Nat := w.elasticsearch.size + w.kibana.size

/-- The keys that a change of an object of a kind concerns. -/
def watchersOf (w : Watches) (kind : Kind) (key : Key) : List Key :=
  match Side.ofKind? kind with
  | some side => (w.get side).watchersOf key
  | none => []

end Watches

end ClusterLink
