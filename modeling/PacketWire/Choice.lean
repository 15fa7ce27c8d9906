/-!
# Choices from a closed set

Packet types, wire formats and log levels are small closed sets whose members have names. A
member is chosen by its exact name or by its position; both ways are checked against the same
listing, so the two cannot drift apart.
-/

namespace PacketWire

/-- A closed set listed in its canonical order, each member with its name. -/
class Listed (α : Type) where
  /-- Every member, in canonical order. -/
  all : List α
  /-- The name under which a member is written and read. -/
  name : α → String

namespace Choice

inductive Error
  | unknownName (name : String) (known : List String)
  | outOfRange (position : Nat) (count : Nat)
  deriving DecidableEq, Repr

/-- A name between the marks that set it apart in a message. -/
def ticked (name : String) : String := "`" ++ name ++ "`"

/-- The wording of a failed choice: the names that would have been accepted are listed in
canonical order, and positions count from zero. -/
def Error.message : Error → String
  | .unknownName name known =>
    "unknown variant " ++ ticked name ++ ", expected one of "
      ++ ", ".intercalate (known.map ticked)
  | .outOfRange position count =>
    "invalid value: integer " ++ ticked (toString position)
      ++ ", expected variant index 0 <= i < " ++ toString count

variable {α : Type} [Listed α]

/-- The member of that exact name: no blanks are trimmed and no case is folded. -/
def named? (name : String) : Option α :=
  (Listed.all (α := α)).find? fun a => Listed.name a = name

/-- The member of that exact name, or the names that were possible. -/
def byName (name : String) : Except Error α :=
  match named? name with
  | some a => .ok a
  | none => .error (.unknownName name ((Listed.all (α := α)).map Listed.name))

def byPosition (position : Nat) : Except Error α :=
  match (Listed.all (α := α))[position]? with
  | some a => .ok a
  | none => .error (.outOfRange position (Listed.all (α := α)).length)

end Choice

end PacketWire
