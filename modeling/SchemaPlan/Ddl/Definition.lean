import SchemaPlan.Ddl.Identifier
import SchemaPlan.Model.Column

set_option autoImplicit false

/-!
# Column definitions

The text that defines a column inside a statement: its name, its type, its
character set, whether it takes nulls, its default and what else it has.
-/

namespace SchemaPlan

/-- A word and a value behind it, or nothing where the value is empty. -/
def clause (words value : String) : String :=
  if value == "" then "" else words ++ value

/-- Double the single quotes of a text. -/
def doubleQuotes : List Char → List Char
  | [] => []
  | c :: rest => if c = '\x27' then c :: c :: doubleQuotes rest else c :: doubleQuotes rest

/-- A text as a literal between single quotes. -/
def quoteLiteral (text : String) : String :=
  String.ofList ('\x27' :: doubleQuotes text.toList ++ ['\x27'])

namespace Column

/-- How the sign of a number is written. -/
def signWord (column : Column) : String :=
  if column.isUnsigned then "UNSIGNED" else "SIGNED"

/-- The type with what belongs to it.  The tag keeps its spelling; a type with
a list of values is written as the catalog has it. -/
def typeText (column : Column) : String :=
  match column.type? with
  | none => column.dataType
  | some d =>
    if d.isInteger then
      column.dataType ++ "(" ++ toString ((d.displayWidth? column.isUnsigned).getD 0) ++ ") "
        ++ column.signWord
    else if d.isFixedPoint || d.isFloatingPoint then
      column.dataType ++ "(" ++ toString column.precision.toNat ++ ","
        ++ toString column.numericScale.toNat ++ ") " ++ column.signWord
    else if d.hasValueList then column.columnType
    else if d.hasLength then column.dataType ++ "(" ++ toString column.maxLength.toNat ++ ")"
    else column.dataType

/-- Whether a default of a type with quoted defaults is written as it is: the
null of a column that takes nulls, and what is quoted already. -/
def isBareDefault (column : Column) : Bool :=
  (column.isNullable && column.default == "NULL") || column.default.toList.head? == some '\x27'

/-- The default as it is written, if the definition has one: a type with quoted
defaults always has one, any other type only one that is not empty. -/
def defaultText? (column : Column) : Option String :=
  if (column.type?.map DataType.hasQuotedDefault).getD false then
    some (if column.isBareDefault then column.default else quoteLiteral column.default)
  else if column.default == "" then none
  else some column.default

/-- The definition of a column, as creating, adding and changing one write it. -/
def definition (column : Column) : String :=
  quoteIdentifier column.name ++ " " ++ column.typeText
    ++ clause " CHARACTER SET " column.charSet
    ++ clause " COLLATE " column.collation
    ++ (if column.isNullable then " NULL" else " NOT NULL")
    ++ (match column.defaultText? with
      | some text => " DEFAULT " ++ text
      | none => "")
    ++ clause " " column.extra

end Column

end SchemaPlan
