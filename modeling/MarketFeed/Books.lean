import MarketFeed.Book

/-!
# Books — the books of all products

The client's book manager. A book comes into being with the first snapshot of its product.
Changes and trades of a product without a book are counted as unknown and do nothing, so
no book is ever built from parts.

What a batch did is counted by kind (`BatchOutcome`): entries that changed a book, entries
that were stale, and entries of products without a book. A batch of changes is for one
product and so either all of it is unknown or none; a batch of trades can mix products,
and is applied trade by trade until one has no outcome (`tradeAll`).

Every book stands at the place of its own product (`put`), and taking one away (`remove`)
makes its product unknown again.
-/

namespace MarketFeed

/-- The books by product. -/
structure Books where
  shelf : SortedMap Product Book
deriving DecidableEq

/-- How many entries of a batch were applied, came too late, or had no book. -/
structure BatchOutcome where
  applied : Nat
  stale : Nat
  unknown : Nat
deriving DecidableEq, Repr

namespace BatchOutcome

def zero : BatchOutcome := ⟨0, 0, 0⟩

instance : Inhabited BatchOutcome := ⟨zero⟩

/-- One entry more that found a book. -/
def count (o : BatchOutcome) : Effect → BatchOutcome
  | .applied => { o with applied := o.applied + 1 }
  | .stale => { o with stale := o.stale + 1 }

/-- One entry more without a book. -/
def countUnknown (o : BatchOutcome) : BatchOutcome := { o with unknown := o.unknown + 1 }

end BatchOutcome

namespace Books

def empty : Books := ⟨.empty⟩

instance : Inhabited Books := ⟨empty⟩

def get? (bs : Books) (p : Product) : Option Book := bs.shelf.get? p

def products (bs : Books) : List Product := bs.shelf.keys

/-- All books, in the order of their products. -/
def toList (bs : Books) : List Book := bs.shelf.values

def size (bs : Books) : Nat := bs.shelf.size

def isEmpty (bs : Books) : Bool := bs.shelf.isEmpty

def put (bs : Books) (p : Product) (b : Book) : Books := ⟨bs.shelf.insert p b⟩

def remove (bs : Books) (p : Product) : Books := ⟨bs.shelf.erase p⟩

/-- Replaces the levels of a product's book, which is there from then on. -/
def snapshot (bs : Books) (p : Product) (changes : List LevelChange) : Books :=
  bs.put p (((bs.get? p).getD (.empty p)).snapshot changes)

/-- Changes levels of a product's book. -/
def change (bs : Books) (p : Product) (changes : List LevelChange) : BatchOutcome × Books :=
  match bs.get? p with
  | none => (⟨0, 0, changes.length⟩, bs)
  | some b =>
    let (stale, b) := b.changeAll changes
    (⟨changes.length - stale, stale, 0⟩, bs.put p b)

/-- Takes one trade away from its product's book; `none` when the remaining quantity is out of range. -/
def trade? (bs : Books) (o : BatchOutcome) (t : Trade) : Option (BatchOutcome × Books) :=
  match bs.get? t.product with
  | none => some (o.countUnknown, bs)
  | some b =>
    (b.trade? t.side t.price t.size t.time).map fun (effect, b) => (o.count effect, bs.put t.product b)

/-- Takes trades away in turn. One whose remaining quantity is out of range ends the batch without an outcome,
but the trades before it are done. -/
def tradeAll : Books → BatchOutcome → List Trade → Option BatchOutcome × Books
  | bs, o, [] => (some o, bs)
  | bs, o, t :: rest =>
    match bs.trade? o t with
    | none => (none, bs)
    | some (o, bs) => tradeAll bs o rest

/-- Takes a batch of trades away. -/
def trade (bs : Books) (trades : List Trade) : Option BatchOutcome × Books := tradeAll bs .zero trades

end Books

end MarketFeed
