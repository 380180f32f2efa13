/-!
# Tabletop.Entries

Keys and their values in the order in which the keys were first put.

1. Putting a value under a key that is there replaces the value; the key
   keeps its place and its spelling.
2. Putting a value under a new key adds an entry after all others.

Which keys count as one is up to the caller.
-/

namespace Tabletop.Entries

variable {α β : Type}

/-- Puts a value under a key. -/
def put (same : α → α → Bool) (entries : List (α × β)) (key : α) (value : β) : List (α × β) :=
  if entries.any fun e => same e.1 key then
    entries.map fun e => if same e.1 key then (e.1, value) else e
  else entries ++ [(key, value)]

/-- Puts values under keys, one after the other. -/
def putAll (same : α → α → Bool) (entries new : List (α × β)) : List (α × β) :=
  new.foldl (fun es e => put same es e.1 e.2) entries

/-- The entries made by putting values under keys, one after the other. -/
def ofList (same : α → α → Bool) (new : List (α × β)) : List (α × β) := putAll same [] new

end Tabletop.Entries
