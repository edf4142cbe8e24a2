import ChainEconomy.Store.Basic

/-! # Sessions

What a program does between its start and its end, as seen from outside: it asks for files and for
stored state, and hands state back. A session is a value that says what it asks for next and how it
goes on after each answer; somebody else carries the requests out. -/

namespace ChainEconomy

/-- A session that ends with an `α`. -/
inductive Session (α : Type) where
  | finish (result : α)
  /-- Asks whether there is something at a path. -/
  | hasPath (path : String) (resume : Bool → Session α)
  /-- Asks whether there is a file at a path. -/
  | isFile (path : String) (resume : Bool → Session α)
  /-- Asks for the text of a file; the answer may be the reason why there is none. -/
  | fileText (path : String) (resume : Except String String → Session α)
  /-- Asks for the entries kept in a directory, which is created if need be. -/
  | openState (dir : String) (resume : Except String (OrderedMap Bytes Bytes) → Session α)
  /-- Hands over the entries to keep in a directory. -/
  | keepState (dir : String) (entries : OrderedMap Bytes Bytes) (resume : Session α)

namespace Session

variable {α β : Type}

/-- A session that goes on with another one. -/
def andThen (f : α → Session β) : Session α → Session β
  | finish result => f result
  | hasPath path resume => .hasPath path fun found => andThen f (resume found)
  | isFile path resume => .isFile path fun found => andThen f (resume found)
  | fileText path resume => .fileText path fun answer => andThen f (resume answer)
  | openState dir resume => .openState dir fun answer => andThen f (resume answer)
  | keepState dir entries resume => .keepState dir entries (andThen f resume)

instance : Monad Session where
  pure := finish
  bind x f := andThen f x

end Session

/-- A part of a session that may fail with an `ε`. -/
abbrev Task (ε α : Type) : Type := ExceptT ε Session α

namespace Task

variable {ε : Type}

/-- Whether there is something at a path. -/
def hasPath (path : String) : Task ε Bool :=
  ExceptT.mk (.hasPath path fun found => .finish (.ok found))

/-- Whether there is a file at a path. -/
def isFile (path : String) : Task ε Bool :=
  ExceptT.mk (.isFile path fun found => .finish (.ok found))

/-- The text of a file. -/
def fileText (path : String) (refuse : String → ε) : Task ε String :=
  ExceptT.mk (.fileText path fun answer => .finish (answer.mapError refuse))

/-- The entries kept in a directory. -/
def openState (dir : String) (refuse : String → ε) : Task ε (OrderedMap Bytes Bytes) :=
  ExceptT.mk (.openState dir fun answer => .finish (answer.mapError refuse))

/-- Keeps entries in a directory. -/
def keepState (dir : String) (entries : OrderedMap Bytes Bytes) : Task ε Unit :=
  ExceptT.mk (.keepState dir entries (.finish (.ok ())))

/-- A result that needs no session. -/
def ofExcept {α : Type} (x : Except ε α) : Task ε α := ExceptT.mk (.finish x)

end Task

end ChainEconomy
