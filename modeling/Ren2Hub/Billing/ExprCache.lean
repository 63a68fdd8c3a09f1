import Ren2Hub.Lib.Crew

namespace Ren2Hub.Tiered
open Lib

def maxCacheSize : Nat := 256

/-- A call before its next critical section; the first three have not begun. `forVars`: it is the
compilation inside `UsedVars`. -/
inductive ExprJob where
  | usedVars (expr : String)
  | compileFromCache (expr : String) (forVars : Bool)
  | invalidateCache
  | storing (expr : String) (forVars : Bool)
  | reading (expr : String)
  | returned (expr : String) (vars : Option (List String))
  | ended
deriving DecidableEq

def afterCompile (expr : String) (forVars : Bool) : ExprJob :=
  if forVars then .reading expr else .ended

/-- The cache holds the expressions with an entry; what an entry has is what `compile` gives. -/
def ExprJob.step (compile : String → Option (List String)) :
    ExprJob → List String → List String × ExprJob
  | .usedVars expr, cache =>
    if expr = "" then (cache, .returned expr none)
    else if expr ∈ cache then (cache, .returned expr (compile expr))
    else (cache, .compileFromCache expr true)
  | .compileFromCache expr forVars, cache =>
    if expr ∈ cache then (cache, afterCompile expr forVars)
    else if (compile expr).isSome then (cache, .storing expr forVars)
    else (cache, if forVars then .returned expr none else .ended)
  | .storing expr forVars, cache =>
    ((if maxCacheSize ≤ cache.length then [] else cache).insert expr, afterCompile expr forVars)
  | .reading expr, cache =>
    (cache, .returned expr (if expr ∈ cache then compile expr else none))
  | .invalidateCache, _ => ([], .ended)
  | job, cache => (cache, job)

abbrev ExprWorld := Crew (List String) ExprJob

end Ren2Hub.Tiered
