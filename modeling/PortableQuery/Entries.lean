/-!
# Ordered entries

A list of named values. Inserting under a name that is already present replaces the value and
keeps the place, so the order is that of first occurrences and the values are those of last ones.
-/

namespace PortableQuery

abbrev Entries (α : Type) := List (String × α)

namespace Entries

variable {α β : Type}

def keys (entries : Entries α) : List String := entries.map Prod.fst

def get? : Entries α → String → Option α
  | [], _ => none
  | (key, value) :: rest, name => if key = name then some value else get? rest name

def insert (name : String) (value : α) : Entries α → Entries α
  | [] => [(name, value)]
  | (key, old) :: rest =>
    if key = name then (key, value) :: rest else (key, old) :: insert name value rest

def insertAll (entries : Entries α) (more : List (String × α)) : Entries α :=
  more.foldl (fun soFar pair => insert pair.1 pair.2 soFar) entries

/-- Collects pairs in which names may repeat. -/
def ofList (pairs : List (String × α)) : Entries α := insertAll [] pairs

theorem keys_insert_of_not_mem {name : String} {value : α} {entries : Entries α}
    (absent : name ∉ keys entries) : insert name value entries = entries ++ [(name, value)] := by
  induction entries with
  | nil => rfl
  | cons pair rest ih =>
    obtain ⟨key, old⟩ := pair
    simp only [keys, List.map_cons, List.mem_cons, not_or] at absent
    simp [insert, Ne.symm absent.1, ih absent.2]

end Entries

end PortableQuery
