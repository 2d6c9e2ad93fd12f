import CapabilityBroker.Catalog
import CapabilityBroker.Work
/-!
# Resolvers

Where the answers to requests come from: the catalog, which answers at
once, or a script of pieces of work, one for each asking.
-/

namespace CapabilityBroker

/-- A resolver. -/
inductive Resolver where
  | catalog (strict : Bool)
  | script (name : String) (works : List (Work CapabilitySet))

namespace Resolver

/-- The name of a resolver. -/
def name : Resolver → String
  | catalog _ => Catalog.name
  | script name _ => name

/-- The work of the `n`th asking, the first one being number zero. Work
that is not in the script never ends. -/
def work (r : Resolver) (n : Nat) (request : Request) : Work CapabilitySet :=
  match r with
  | catalog strict => ⟨some 0, .done (Catalog.resolve strict request)⟩
  | script _ works => (Work.inScript works n).getD ⟨none, .panicked⟩

/-- The longest that a resolver works on one request. -/
def longestWork : Resolver → Nat
  | catalog _ => 0
  | script _ works => works.foldl (fun d w => max d (w.delay.getD 0)) 0

end Resolver

end CapabilityBroker
