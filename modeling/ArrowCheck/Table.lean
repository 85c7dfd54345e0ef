namespace ArrowCheck

/-- Keys with their values; no key stands twice. -/
structure Table (κ : Type) (α : Type) where
  entries : List (κ × α) := []

namespace Table

variable {κ α : Type} [DecidableEq κ]

def getEntry? (k : κ) : List (κ × α) → Option α
  | [] => none
  | (k', a) :: rest => if k' = k then some a else getEntry? k rest

def get? (t : Table κ α) (k : κ) : Option α := getEntry? k t.entries

/-- Sets the value of a key: in its place if it has one, else behind all others. -/
def insertEntry (k : κ) (a : α) : List (κ × α) → List (κ × α)
  | [] => [(k, a)]
  | (k', a') :: rest => if k' = k then (k, a) :: rest else (k', a') :: insertEntry k a rest

def insert (t : Table κ α) (k : κ) (a : α) : Table κ α := ⟨insertEntry k a t.entries⟩

def ofList (entries : List (κ × α)) : Table κ α :=
  entries.foldl (fun t e => t.insert e.1 e.2) {}

def sorted [LE κ] [DecidableLE κ] (t : Table κ α) : List (κ × α) :=
  t.entries.mergeSort fun a b => a.1 ≤ b.1

theorem getEntry?_insertEntry (k k' : κ) (a : α) (entries : List (κ × α)) :
    getEntry? k' (insertEntry k a entries) = if k' = k then some a else getEntry? k' entries := by
  induction entries with
  | nil => grind [insertEntry, getEntry?]
  | cons e rest ih => grind [insertEntry, getEntry?]

/-- The last value put under a key is the one that is found. -/
theorem get?_insert (t : Table κ α) (k k' : κ) (a : α) :
    (t.insert k a).get? k' = if k' = k then some a else t.get? k' :=
  getEntry?_insertEntry k k' a t.entries

end Table

end ArrowCheck
