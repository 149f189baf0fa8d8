import Mathlib.Algebra.Order.Floor.Div
import SentinelSsh.Backend.Services

/-!
# The listings of the API

`api/attacks.py`, `api/search.py` and `api/incidents.py` with the envelope of `utils/responses.py`, and
what a client that asks for all pages of a listing expects to see.
-/

namespace SentinelSsh.Backend

open SentinelSsh.Core Python

/-! ## Endpoints -/

/-- The `meta` object of a page. -/
structure Meta where
  page : Nat
  perPage : Nat
  total : Nat
  pages : Nat
  hasNext : Bool
  hasPrev : Bool
  deriving DecidableEq, Repr

/-- A page in its envelope. -/
structure Page (β : Type) where
  data : List β
  pageMeta : Meta
  deriving DecidableEq, Repr

/-- `paginated` -/
def paginated {β : Type} (items : List β) (page perPage total : Nat) : Page β :=
  let pages := if perPage ≠ 0 then Paging.pages total perPage else 0
  { data := items
    pageMeta :=
      { page := page
        perPage := perPage
        total := total
        pages := pages
        hasNext := page < pages
        hasPrev := page > 1 } }

/-- `list_attacks` -/
def listAttacks (dialect : Dialect) (sql : Sql) (arrange : List Attack → List Attack) (q : AttackQuery)
    (db : Db) : Except ApiError (Page AttackOut) := do
  let (items, total) ← AttackService.list dialect sql arrange q db
  return paginated items q.page q.perPage total

/-- `search`, for parameters `page` and `per_page` that are integers. -/
def search (dialect : Dialect) (sql : Sql) (arrange : List Attack → List Attack) (term : String)
    (field : Option String) (page perPage : Int) (db : Db) : Except ApiError (Page AttackOut) := do
  let field := field.bind SearchField.ofString
  let page := (min (max page 1) 1000000).toNat
  let perPage := (min (max perPage 1) 100).toNat
  let (items, total) ← AttackService.search dialect sql arrange term field page perPage db
  return paginated items page perPage total

/-- `list_incidents` -/
def listIncidents (arrange : List Incident → List Incident) (q : IncidentQuery) (db : Db) :
    Page IncidentOut :=
  let (items, total) := IncidentService.list arrange q db
  paginated items q.page q.perPage total

/-! ## All pages of a listing -/

/-- A listing with everything fixed but the page that is asked for: the rows it is about and their
order, and the keys it shows on a page, given what the database makes of `ORDER BY` for this query. -/
structure Listing (α : Type) where
  rows : List α
  key : α → Nat
  orderBy : α → α → Bool
  perPage : Nat
  shown : (List α → List α) → Nat → List Nat

namespace Listing

variable {α : Type} (l : Listing α)

/-- `meta.pages` -/
def pages : Nat :=
  Paging.pages l.rows.length l.perPage

/-- A client that asks for the pages one after the other sees every row once, whatever orders the
database chooses. -/
def Exact : Prop :=
  ∀ arrange : Nat → List α → List α, (∀ k, Paging.Arranged l.orderBy l.rows (arrange k l.rows)) →
    Paging.EachOnce (l.rows.map l.key) ((List.range l.pages).flatMap fun k => l.shown (arrange k) (k + 1))

/-- No page boundary separates rows that tie on the sort column. -/
def Uncut : Prop :=
  ∀ k, ¬ Paging.Cuts l.orderBy l.rows (k * l.perPage)

end Listing

/-- A client of a listing of `rows` that begins with page 1 and follows `meta.has_next` of the answers. -/
structure Followed {α : Type} (rows : List α) (perPage : Nat) (answer : Nat → Page α) : Prop where
  /-- It asks for the pages it takes to show all rows, and for the first one if there are no rows. -/
  requests : ∀ asked, Paging.Walk (fun page => (answer page).pageMeta.hasNext) 1 asked ↔
    asked = List.range' 1 (max 1 (rows.length ⌈/⌉ perPage))
  /-- Every position is in the window of exactly one of these pages. -/
  covered : ∀ i < rows.length, ∃! page, page ∈ List.range' 1 (max 1 (rows.length ⌈/⌉ perPage)) ∧
    (page - 1) * perPage ≤ i ∧ i < page * perPage
  /-- A page shows its window. -/
  window : ∀ page, 1 ≤ page → (answer page).data = Paging.window ((page - 1) * perPage) perPage rows
  /-- The pages put together are the rows in their order. -/
  pieces : (List.range' 1 (max 1 (rows.length ⌈/⌉ perPage))).flatMap (fun page => (answer page).data) = rows
  hasNext : ∀ page, 1 ≤ page →
    ((answer page).pageMeta.hasNext = true ↔ ∃ i < rows.length, page * perPage ≤ i)
  hasPrev : ∀ page, 1 ≤ page → ((answer page).pageMeta.hasPrev = true ↔ 1 < page)

/-- The keys of the attacks an answer shows. -/
def shownAttacks (answer : Except ApiError (Page AttackOut)) : List Nat :=
  match answer with
  | .ok page => page.data.map (·.id)
  | .error _ => []

/-- The pages of `/api/attacks` for the query `q`. -/
def AttackQuery.listing (dialect : Dialect) (sql : Sql) (db : Db) (q : AttackQuery) : Listing Attack where
  rows := q.rows sql db
  key := (·.id)
  orderBy := q.orderBy sql
  perPage := q.perPage
  shown arrange page := shownAttacks
    (listAttacks dialect sql arrange { q with page := max page 1, one_le_page := le_max_right _ _ } db)

/-- The pages of `/api/search`. -/
def searchListing (dialect : Dialect) (sql : Sql) (db : Db) (term : String) (field : Option String)
    (perPage : Nat) : Listing Attack where
  rows := searchRows sql (String.ofList (strip term.toList)) (field.bind SearchField.ofString) db
  key := (·.id)
  orderBy := searchOrder sql
  perPage := perPage
  shown arrange page := shownAttacks (search dialect sql arrange term field page perPage db)

/-- The pages of `/api/incidents` for the query `q`. -/
def IncidentQuery.listing (sql : Sql) (db : Db) (q : IncidentQuery) : Listing Incident where
  rows := q.rows db
  key := (·.id)
  orderBy := q.orderBy sql
  perPage := q.perPage
  shown arrange page := (listIncidents arrange
    { q with page := max page 1, one_le_page := le_max_right _ _ } db).data.map (·.id)

/-- The row has a JSON form. -/
def Serializable (a : Attack) : Prop :=
  (validateStr a.password).isOk = true

end SentinelSsh.Backend
