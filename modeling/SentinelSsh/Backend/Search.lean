import SentinelSsh.Backend.Repositories
import SentinelSsh.Lib.Like

/-!
# What the free-text search is for

The search of `AttackRepository` pastes the term into a pattern for `ILIKE`. Here it is said what a
client expects: the attacks one of whose columns contains the term, without regard to case.
-/

namespace SentinelSsh.Backend

open SentinelSsh.Core Python

/-- What a database makes of the text in a column: how it compares it, and the characters it reads in a
byte string. -/
structure TextSearch where
  collation : Like.Collation
  readBytes : List UInt8 → List Char

/-- The characters of a value; a null has none. -/
def TextSearch.chars (m : TextSearch) : SqlValue → Option (List Char)
  | .text (.str s) => some s.toList
  | .text (.bytes b) => some (m.readBytes b)
  | _ => none

/-- The database evaluates `ILIKE` on the columns of the search. -/
def Sql.Evaluates (sql : Sql) (m : TextSearch) : Prop :=
  ∀ (pattern : String) (f : SearchField) (a : Attack),
    sql.ilike pattern (f.column a) = (m.chars (f.column a)).any (Like.ilike m.collation pattern.toList)

/-- The value contains the term. -/
def TextSearch.finds (m : TextSearch) (term : List Char) (value : SqlValue) : Bool :=
  (m.chars value).any fun text => Like.Contains m.collation term text

/-- The attacks whose chosen column, or without a choice one of the five, contains the term. -/
def containing (m : TextSearch) (term : String) (field : Option SearchField) (db : Db) : List Attack :=
  db.attacks.filter fun a =>
    match field with
    | some f => m.finds term.toList (f.column a)
    | none => searchFields.any fun f => m.finds term.toList (f.column a)

/-- The search counts the attacks that contain the term, and returns them over its pages. -/
structure SearchExact (sql : Sql) (m : TextSearch) (term : String) (field : Option SearchField) (db : Db) :
    Prop where
  counted : ∀ arrange page perPage,
    (AttackRepository.search sql arrange term field page perPage db).2 = (containing m term field db).length
  returned : ∀ arrange perPage, 1 ≤ perPage → (∀ rows, (arrange rows).Perm rows) →
    ((List.range (Paging.pages (containing m term field db).length perPage)).flatMap fun k =>
      (AttackRepository.search sql arrange term field (k + 1) perPage db).1).Perm (containing m term field db)

/-- SQLite; the bytes of a byte string are read one by one. -/
def TextSearch.sqlite : TextSearch where
  collation := .sqlite
  readBytes b := b.map fun x => Char.ofNat x.toNat

end SentinelSsh.Backend
