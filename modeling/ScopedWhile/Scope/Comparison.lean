import ScopedWhile.Scope.Store

/-!
Equality of data and of scopes. Booleans count as the numbers 0 and 1, numbers are compared by
value, objects and scopes by their fields in any order, and a scope is always equal to itself.
-/

namespace ScopedWhile

namespace Datum

/-- The number that a boolean or number stands for. -/
def numeric? : Datum → Option Number
  | .boolean b => some (.int (if b then 1 else 0))
  | .number n => some n
  | _ => none

def sameNumber (a b : Datum) : Bool :=
  match a.numeric?, b.numeric? with
  | some m, some n => m.same n
  | _, _ => false

/-- The fields of an object, or of a scope when `fieldsOf` gives them. -/
def fields? (fieldsOf : ScopeId → List (String × Datum)) : Datum → Option (List (String × Datum))
  | .object fields => some fields
  | .scope id => some (fieldsOf id)
  | _ => none

variable (fieldsOf : ScopeId → List (String × Datum)) (sameScope : ScopeId → Datum → Bool)

mutual

/-- Compares two data, given how a scope compares with a datum. -/
def same : Datum → Datum → Bool
  | .null, .null => true
  | .text a, .text b => a = b
  | .bytes a, .bytes b => a = b
  | .list as, .list bs => sameItems as bs
  | .tuple as, .tuple bs => sameItems as bs
  | .object fields, other => match other.fields? fieldsOf with
    | some others => fields.length = others.length && sameFields fields others
    | none => false
  | .scope id, other => sameScope id other
  | a, b => sameNumber a b

def sameItems : List Datum → List Datum → Bool
  | [], [] => true
  | a :: as, b :: bs => same a b && sameItems as bs
  | _, _ => false

/-- Whether every field has an equal one among the others. -/
def sameFields : List (String × Datum) → List (String × Datum) → Bool
  | [], _ => true
  | (name, a) :: rest, others => match others.lookup name with
    | some b => same a b && sameFields rest others
    | none => false

end

mutual

/-- How deeply a datum nests. -/
def depth : Datum → Nat
  | .list items => depthItems items + 1
  | .tuple items => depthItems items + 1
  | .object fields => depthFields fields + 1
  | _ => 0

def depthItems : List Datum → Nat
  | [] => 0
  | item :: rest => max item.depth (depthItems rest)

def depthFields : List (String × Datum) → Nat
  | [] => 0
  | (_, item) :: rest => max item.depth (depthFields rest)

end

end Datum

namespace Store

/-- Compares a scope with a datum. Scopes are opened at most as often as `budget` says, which only
scopes that hold themselves can use up. -/
def sameScope (store : Store) : (budget : Nat) → ScopeId → Datum → Bool
  | 0, _, _ => false
  | budget + 1, id, other =>
      let fieldsOf (id : ScopeId) := (store.level id).entries
      let fields := fieldsOf id
      match other with
      | .scope otherId =>
          id = otherId || (fields.length = (fieldsOf otherId).length
            && Datum.sameFields fieldsOf (store.sameScope budget) fields (fieldsOf otherId))
      | _ => match other.fields? fieldsOf with
        | some others => fields.length = others.length
            && Datum.sameFields fieldsOf (store.sameScope budget) fields others
        | none => false

/-- More than any nesting of data and scopes that do not hold themselves. -/
def nesting (store : Store) : Nat :=
  store.scopes.foldl (fun n scope => n + (Datum.object scope.level.entries).depth + 1) 1

/-- Whether two scopes bind the same names to equal data; order and parents do not count. -/
def same (store : Store) (a b : ScopeId) : Bool :=
  store.sameScope store.nesting a (.scope b)

end Store

end ScopedWhile
