/-!
# Tables by key

A table holds one value for each of its keys and lists them in the order of the keys, which
is the order of their code points.  A set of names is a table without values.
-/

namespace Quill.Text

/-- Insert a pair into a list sorted by key; an equal key gives up its value. -/
def insertSorted (key : String) (value : α) : List (String × α) → List (String × α)
  | [] => [(key, value)]
  | (other, held) :: rest =>
    if key < other then (key, value) :: (other, held) :: rest
    else if key = other then (key, value) :: rest
    else (other, held) :: insertSorted key value rest

/-- Values under keys, in the order of the keys. -/
structure Table (α : Type) where
  entries : List (String × α) := []
  deriving DecidableEq, Repr

namespace Table

def empty : Table α :=
  ⟨[]⟩

/-- Put a value under a key, in place of an earlier one. -/
def insert (table : Table α) (key : String) (value : α) : Table α :=
  ⟨insertSorted key value table.entries⟩

def get? (table : Table α) (key : String) : Option α :=
  table.entries.lookup key

def contains (table : Table α) (key : String) : Bool :=
  (table.get? key).isSome

def keys (table : Table α) : List String :=
  table.entries.map Prod.fst

end Table

/-- A set of names, in order. -/
abbrev Names := Table Unit

end Quill.Text
