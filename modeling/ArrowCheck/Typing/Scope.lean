import ArrowCheck.Typing.Store

namespace ArrowCheck

abbrev Scope := Table String TypeId

/-- The open scopes, innermost first, above the global one. -/
structure ScopeStack where
  inner : List Scope := []
  global : Scope := {}

namespace ScopeStack

def depth (s : ScopeStack) : Nat := s.inner.length + 1

def push (s : ScopeStack) : ScopeStack := { s with inner := {} :: s.inner }

def pop (s : ScopeStack) : Option Scope × ScopeStack :=
  match s.inner with
  | [] => (none, s)
  | scope :: rest => (some scope, { s with inner := rest })

def define (s : ScopeStack) (name : String) (type : TypeId) : ScopeStack :=
  match s.inner with
  | [] => { s with global := s.global.insert name type }
  | scope :: rest => { s with inner := scope.insert name type :: rest }

def lookup (s : ScopeStack) (name : String) : Option TypeId :=
  (s.inner ++ [s.global]).findSome? fun scope => scope.get? name

def reset (_ : ScopeStack) : ScopeStack := {}

end ScopeStack

end ArrowCheck
