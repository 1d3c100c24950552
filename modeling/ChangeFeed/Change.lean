import ChangeFeed.Json.Basic
import ChangeFeed.Text.Letters

/-!
# Row changes

A captured change of one row: what kind of change it is, the images of every
column before and after it, and where and when it was captured. An image that
was not captured differs from one that was captured as null.

**Results.**

* `captured?_eq_some_iff`: only texts are captured values.
-/

namespace ChangeFeed

/-- The kind of a change. -/
inductive ChangeKind where
  | insert
  | update
  | delete
  | keyUpdate
  | unknown
deriving DecidableEq

namespace ChangeKind

/-- The word for a kind. -/
def name : ChangeKind → String
  | .insert => "insert"
  | .update => "update"
  | .delete => "delete"
  | .keyUpdate => "pk_update"
  | .unknown => "unknown"

/-- The codes that the capture layer has for kinds of changes. -/
def codes : List (String × ChangeKind) :=
  [("I", .insert), ("INSERT", .insert), ("U", .update), ("UPDATE", .update),
    ("D", .delete), ("DELETE", .delete), ("PK", .keyUpdate), ("PK_UPDATE", .keyUpdate)]

/-- The kind that a code stands for, in letters of any case. -/
def ofCode (code : Text) : ChangeKind :=
  (codes.lookup (Text.upper code.shown)).getD .unknown

end ChangeKind

/-- The image of a row that a block is built from. -/
inductive Side where
  | before
  | after
deriving DecidableEq

/-- The word for a side. -/
def Side.name : Side → String
  | .before => "before"
  | .after => "after"

/-- What was captured of a column on one side. -/
inductive Image where
  | absent
  | null
  | captured (text : Text)
deriving DecidableEq

namespace Image

/-- The text of an image that has one. -/
def captured? : Image → Option Text
  | .captured text => some text
  | _ => none

theorem captured?_eq_some_iff
    (image : Image)
    (text : Text) :
    image.captured? = some text ↔ image = .captured text := by
  cases image <;> simp [captured?]

end Image

/-- The images of a column on both sides. -/
structure Images where
  before : Image
  after : Image
deriving DecidableEq

/-- The image on one side. -/
def Images.on (images : Images) : Side → Image
  | .before => images.before
  | .after => images.after

/-- A captured change of one row. -/
structure Change where
  /-- The kind of the change. -/
  kind : ChangeKind
  /-- The code that the kind was given by. -/
  code : Text
  /-- The name of the table that the change itself gives. -/
  table : Json
  /-- The images of the columns, in the order of the table. -/
  columns : List Images
  /-- The time of the change, as captured. -/
  time : Text
  /-- The position of the change in its source. -/
  position : Text
  /-- Further facts, by name. -/
  tokens : List (Text × Text)

end ChangeFeed
