import GatewayEnrichment.Json.Reader

/-! Passing over a value whose content nobody wants. Brackets that are open are kept in a list, so
that nesting has no bound, and strings and numbers are only checked for their form. -/

namespace GatewayEnrichment.Json

inductive Bracket where
  | list
  | object
  deriving DecidableEq, Repr

inductive Expects where
  | value
  | opened
  | next
  deriving DecidableEq, Repr

def skimNumber (input : Octets) : Except Flaw (Unit × Octets) :=
  match Literal.read input with
  | .ok (_, rest) => .ok ((), rest)
  | .error _ => .error .malformed

structure Skim where
  expects : Expects
  opened : List Bracket
  deriving DecidableEq, Repr

namespace Skim

def value (opened : List Bracket) : Reader Skim := fun input =>
  match skipSpace input with
  | [] => .error .truncated
  | c :: rest =>
    let ended := fun (u : Unit × Octets) => (⟨.next, opened⟩, u.2)
    if c = Mark.n then (readWord (octets "null") (c :: rest)).map ended
    else if c = Mark.t then (readWord (octets "true") (c :: rest)).map ended
    else if c = Mark.f then (readWord (octets "false") (c :: rest)).map ended
    else if c = Mark.minus ∨ isDigit c then (skimNumber (c :: rest)).map ended
    else if c = Mark.quote then (skimString rest).map ended
    else if c = Mark.openList then .ok (⟨.opened, .list :: opened⟩, rest)
    else if c = Mark.openObject then .ok (⟨.opened, .object :: opened⟩, rest)
    else .error .malformed

def key (opened : List Bracket) : Reader Skim := fun input =>
  match skipSpace input with
  | [] => .error .truncated
  | Mark.quote :: rest => do
    let (_, rest) ← skimString rest
    let (_, rest) ← readColon rest
    return (⟨.value, opened⟩, rest)
  | _ => .error .malformed

def step (s : Skim) : Reader Skim := fun input =>
  match s.expects, s.opened with
  | .value, opened => value opened input
  | .opened, .list :: opened =>
    match skipSpace input with
    | Mark.closeList :: rest => .ok (⟨.next, opened⟩, rest)
    | rest => value (.list :: opened) rest
  | .opened, .object :: opened =>
    match skipSpace input with
    | Mark.closeObject :: rest => .ok (⟨.next, opened⟩, rest)
    | rest => key (.object :: opened) rest
  | .next, .list :: opened =>
    match skipSpace input with
    | [] => .error .truncated
    | Mark.comma :: rest => .ok (⟨.value, .list :: opened⟩, rest)
    | Mark.closeList :: rest => .ok (⟨.next, opened⟩, rest)
    | _ => .error .malformed
  | .next, .object :: opened =>
    match skipSpace input with
    | [] => .error .truncated
    | Mark.comma :: rest => key (.object :: opened) rest
    | Mark.closeObject :: rest => .ok (⟨.next, opened⟩, rest)
    | _ => .error .malformed
  | _, [] => .ok (s, input)

def done (s : Skim) : Bool := s.expects == .next && s.opened.isEmpty

def run : Nat → Skim → Reader Unit
  | 0, _, _ => .error .truncated
  | n + 1, s, input =>
    if s.done then .ok ((), input)
    else
      match s.step input with
      | .error flaw => .error flaw
      | .ok (s, rest) => run n s rest

end Skim

def skimValue : Reader Unit := fun input => Skim.run (input.length + 1) ⟨.value, []⟩ input

end GatewayEnrichment.Json
