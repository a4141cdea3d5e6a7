import ClusterLink.Key
import ClusterLink.Resource.Kind

/-! Why a call of the store fails. -/

namespace ClusterLink

/-- The cause of a failed store call. -/
inductive StoreError where
  /-- No object of this kind has the key. -/
  | notFound (kind : Kind) (key : Key)
  /-- A write based on version `expected` met the stored version `current`. -/
  | conflict (kind : Kind) (key : Key) (current expected : UInt64)
  /-- The store refused the write. -/
  | rejected (kind : Kind) (key : Key) (reason : String)
  /-- The store could not be reached. -/
  | unavailable (reason : String)
  deriving DecidableEq

namespace StoreError

def isNotFound : StoreError → Bool
  | .notFound .. => true
  | _ => false

/-- The message about a failed store call. -/
def message : StoreError → String
  | .notFound kind key => kind.text ++ " " ++ key.text ++ " not found"
  | .conflict kind key current expected =>
    "conflict writing " ++ kind.text ++ " " ++ key.text ++ ": stored version " ++
      toString current.toNat ++ ", write based on " ++ toString expected.toNat
  | .rejected kind key reason => kind.text ++ " " ++ key.text ++ " rejected: " ++ reason
  | .unavailable reason => "store unavailable: " ++ reason

end StoreError

end ClusterLink
