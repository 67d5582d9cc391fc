import ResourceLocator.Instant
import ResourceLocator.Number.Binary64

/-!
# Dynamic values

Configuration files, overrides, log fields and the things that outside programs fail with are
*values*: the data of a document format, those that need a tag in a document (bytes, instants,
sets and tables), and beside them the few kinds that no document holds (an absent value,
integers of any size, errors, an object that contains itself).

The fields of a record have one order: the keys that are array indices first, ascending, then
the other keys in the order of their first insertion. `Fields.put` keeps it.
-/

namespace ResourceLocator

/-- The class of an error value, with what is particular to it. -/
inductive ErrorClass where
  /-- An error of no particular class. -/
  | plain
  /-- The executable could not be located. -/
  | startup
  /-- A configuration is at fault; `source` names where it came from. -/
  | config (source : Option String)
  /-- The command line ended the program with an exit status. -/
  | usage (status : Int)
  deriving DecidableEq, Repr

/-- A dynamic value. It is a tree of data: left out are functions, and with them objects that say
themselves how they are written (by a `toJSON` or `toString` that can be called); accessors, which
are fields computed when they are read; and what depends on which object a record is, as when two
places share one record, or when one is frozen. -/
inductive Value where
  /-- The absent value. -/
  | undefined
  /-- The null value. -/
  | null
  /-- A truth value. -/
  | bool (b : Bool)
  /-- A floating point number. -/
  | number (n : Number)
  /-- An integer of any size. -/
  | integer (i : Int)
  /-- A symbol. -/
  | symbol (name : String)
  /-- A text. -/
  | text (s : String)
  /-- A list of values. -/
  | list (items : List Value)
  /-- A record, as its fields in order. -/
  | record (fields : List (String × Value))
  /-- An error with its message and all its fields; `Value.ofError` adds those of its class. -/
  | error (kind : ErrorClass) (message : String) (fields : List (String × Value))
  /-- A record whose only field, `self`, is the record. -/
  | cycle
  /-- A sequence of bytes. -/
  | bytes (bytes : List UInt8)
  /-- An instant. -/
  | instant (t : Instant)
  /-- A set of values. -/
  | set (members : List Value)
  /-- A table, whose keys may be any values, as its pairs of a key and a value in order. -/
  | table (entries : List (Value × Value))
  deriving Inhabited

/-- The fields of a record. -/
abbrev Fields := List (String × Value)

/-- The name of a class of errors. -/
def ErrorClass.name : ErrorClass → String
  | .plain => "Error"
  | .startup => "StartupError"
  | .config _ => "ConfigError"
  | .usage _ => "CommanderError"

/-- The number that a key stands for as an array index: digits without a leading zero, below
`2 ^ 32 - 1`. -/
def arrayIndex? (key : String) : Option Nat :=
  let cs := key.toList
  if cs.isEmpty || !cs.all Char.isDigit || (1 < cs.length && cs.head? == some '0') then none
  else
    let n := Nat.ofDigitChars 10 cs 0
    if n < Nat.pow 2 32 - 1 then some n else none

namespace Fields

/-- The value of a key. -/
def get? (fields : Fields) (key : String) : Option Value :=
  (fields.find? (·.1 == key)).map (·.2)

/-- The keys in order. -/
def keys (fields : Fields) : List String :=
  fields.map (·.1)

/-- Whether a new key comes before a key that is there already. -/
def precedes (key other : String) : Bool :=
  match arrayIndex? key, arrayIndex? other with
  | some i, some j => i < j
  | some _, none => true
  | none, _ => false

/-- Sets the value of a key in its place, or adds the key where its order puts it. -/
def put : Fields → String → Value → Fields
  | [], key, v => [(key, v)]
  | (k, w) :: rest, key, v =>
    if k = key then (k, v) :: rest
    else if precedes key k && (get? rest key).isNone then (key, v) :: (k, w) :: rest
    else (k, w) :: put rest key v

/-- The fields of a list of pairs; the last value of a key counts, in the place of the first. -/
def ofList (pairs : List (String × Value)) : Fields :=
  pairs.foldl (fun fields p ↦ put fields p.1 p.2) []

/-- The fields of `base` with those of `top` put over them. -/
def merge (base top : Fields) : Fields :=
  top.foldl (fun fields p ↦ put fields p.1 p.2) base

theorem get?_put_self (fields : Fields) (key : String) (v : Value) :
    get? (put fields key v) key = some v := by
  induction fields with
  | nil => simp [put, get?]
  | cons p rest ih =>
    obtain ⟨k, w⟩ := p
    simp only [put]
    split
    · next h => simp [get?, h]
    · next h =>
      split
      · simp [get?]
      · simpa [get?, List.find?_cons, h] using ih

theorem get?_put_of_ne (fields : Fields) {key other : String} (v : Value) (h : other ≠ key) :
    get? (put fields key v) other = get? fields other := by
  induction fields with
  | nil => simp [put, get?, Ne.symm h]
  | cons p rest ih =>
    obtain ⟨k, w⟩ := p
    have hne : (key == other) = false := by simpa using Ne.symm h
    simp only [put]
    split
    · next hk =>
      subst hk
      simp [get?, hne]
    · split
      · simp [get?, List.find?_cons, hne]
      · by_cases hko : k = other
        · simp [get?, hko]
        · have hko' : (k == other) = false := by simpa using hko
          simpa [get?, List.find?_cons, hko'] using ih

end Fields

namespace Value

/-- The values of a list of texts. -/
def ofTexts (texts : List String) : Value :=
  .list (texts.map .text)

/-- The fields that every error of a class has. -/
def classFields : ErrorClass → Fields
  | .plain => []
  | .startup => [("name", .text "StartupError")]
  | .config source => [("source", (source.map .text).getD .undefined),
      ("name", .text "ConfigError")]
  | .usage status => [("name", .text "CommanderError"), ("code", .text "commander.test"),
      ("exitCode", .number (Number.ofInt status)), ("nestedError", .undefined)]

/-- An error with the fields of its class, and `extra` over them. -/
def ofError (kind : ErrorClass) (message : String) (extra : Fields) : Value :=
  .error kind message (Fields.merge (classFields kind) extra)

/-- The fields of a value that reads as a record: records and errors do, lists do not. The
fields of bytes are their places; instants, sets and tables have none. -/
def fields? : Value → Option Fields
  | .record fields => some fields
  | .error _ _ fields => some fields
  | .cycle => some [("self", .cycle)]
  | .bytes bs => some (bs.zipIdx.map fun (b, i) ↦
      (toString i, .number (Number.ofInt b.toNat)))
  | .instant _ | .set _ | .table _ => some []
  | _ => none

/-- The value with its own fields replaced, if it reads as a record. -/
def withFields : Value → Fields → Value
  | .error kind message _, fields => .error kind message fields
  | _, fields => .record fields

end Value

end ResourceLocator
