import Mathlib.Data.List.Basic

/-!
# The live feed of `frontend/assets/js/dashboard.js`

`loadFeed`, `renderFeed` and `prependAttack` keep two things: the list of the attacks, and the children of
the feed element, which are rows of attacks or the line that nothing has happened yet. What a row looks
like is left to `feedRow`.
-/

namespace SentinelSsh.Frontend

variable {α : Type}

/-! ## The element -/

/-- A child of the feed element. -/
inductive FeedNode (α : Type) where
  /-- `feedRow(a, isNew)` -/
  | row (attack : α) (isNew : Bool)
  /-- `<div class="empty">Waiting for attacks…</div>` -/
  | empty
  deriving DecidableEq, Repr

/-- `rows.forEach((r, i) => { if (i >= limit) r.remove(); })` -/
def dropRows : Nat → List (FeedNode α) → List (FeedNode α)
  | _, [] => []
  | limit, .empty :: nodes => .empty :: dropRows limit nodes
  | 0, .row _ _ :: nodes => dropRows 0 nodes
  | limit + 1, .row a isNew :: nodes => .row a isNew :: dropRows limit nodes

/-- `querySelector('.empty').remove()`, if there is one. -/
def dropEmpty : List (FeedNode α) → List (FeedNode α)
  | [] => []
  | .empty :: nodes => nodes
  | .row a isNew :: nodes => .row a isNew :: dropEmpty nodes

/-! ## The feed -/

/-- `feedItems`, and the children of `feedEl`. -/
structure Feed (α : Type) where
  items : List α := []
  nodes : List (FeedNode α) := [.empty]
  deriving DecidableEq, Repr

/-- `slice(0, 40)` and the index of the first row that is removed. -/
def feedLimit : Nat :=
  40

/-- `renderFeed` -/
def renderFeed (items : List α) : List (FeedNode α) :=
  if items.isEmpty then [.empty] else items.map (.row · false)

/-- `loadFeed`, given what the API returns. -/
def loadFeed (loaded : List α) : Feed α where
  items := loaded
  nodes := renderFeed loaded

/-- `prependAttack` -/
def Feed.prependAttack (feed : Feed α) (a : α) : Feed α where
  items := (a :: feed.items).take feedLimit
  nodes := dropEmpty (dropRows feedLimit (.row a true :: feed.nodes))

/-- The feed after live events, in the order in which they came. -/
def Feed.live (feed : Feed α) (events : List α) : Feed α :=
  events.foldl Feed.prependAttack feed

/-! ## What the feed shows -/

/-- The rows of live events, the last one first, and below them the loaded ones. -/
def feedRows (loaded events : List α) : List (FeedNode α) :=
  events.reverse.map (.row · true) ++ loaded.map (.row · false)

end SentinelSsh.Frontend
