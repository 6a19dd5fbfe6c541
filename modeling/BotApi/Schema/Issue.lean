import BotApi.Value.Display
/-!
What can be wrong with a value that is checked against a schema, and where.
-/

namespace BotApi

inductive Step where
  | key (name : String)
  | index (i : Int)
  deriving Repr, DecidableEq

namespace Schema

inductive Source where
  | values
  | json
  deriving Repr, DecidableEq

inductive Fault where
  | missing
  | extra
  | badKey
  | text
  | textEncoding
  | emptyText
  | integer
  | integerText
  | integerSize
  | fraction
  | notFinite
  | least (n : Int)
  | most (n : Int)
  | above (n : Int)
  | number
  | numberText
  | flag
  | flagText
  | literal (expected : String)
  | list (source : Source)
  | record (source : Source) (name : String)
  | object (source : Source)
  | noTag (reader : String)
  | unknownTag (tag reader expected : String)
  | path
  | json
  | refused (why : String)
  deriving Repr, DecidableEq

def Fault.tag : Fault → String
  | missing => "missing"
  | extra => "extra_forbidden"
  | badKey => "invalid_key"
  | text => "string_type"
  | textEncoding => "string_unicode"
  | emptyText => "string_too_short"
  | integer => "int_type"
  | integerText => "int_parsing"
  | integerSize => "int_parsing_size"
  | fraction => "int_from_float"
  | notFinite => "finite_number"
  | least _ => "greater_than_equal"
  | most _ => "less_than_equal"
  | above _ => "greater_than"
  | number => "float_type"
  | numberText => "float_parsing"
  | flag => "bool_type"
  | flagText => "bool_parsing"
  | literal _ => "literal_error"
  | list _ => "list_type"
  | record _ _ => "model_type"
  | object .values => "model_attributes_type"
  | object .json => "dict_type"
  | noTag _ => "union_tag_not_found"
  | unknownTag _ _ _ => "union_tag_invalid"
  | path => "path_type"
  | json => "json_invalid"
  | refused _ => "value_error"

def Fault.message : Fault → String
  | missing => "Field required"
  | extra => "Extra inputs are not permitted"
  | badKey => "Keys should be strings"
  | text => "Input should be a valid string"
  | textEncoding => "Input should be a valid string, unable to parse raw data as a unicode string"
  | emptyText => "String should have at least 1 character"
  | integer => "Input should be a valid integer"
  | integerText => "Input should be a valid integer, unable to parse string as an integer"
  | integerSize => "Unable to parse input string as an integer, exceeded maximum size"
  | fraction => "Input should be a valid integer, got a number with a fractional part"
  | notFinite => "Input should be a finite number"
  | least n => s!"Input should be greater than or equal to {n}"
  | most n => s!"Input should be less than or equal to {n}"
  | above n => s!"Input should be greater than {n}"
  | number => "Input should be a valid number"
  | numberText => "Input should be a valid number, unable to parse string as a number"
  | flag => "Input should be a valid boolean"
  | flagText => "Input should be a valid boolean, unable to interpret input"
  | literal e => s!"Input should be {e}"
  | list .values => "Input should be a valid list"
  | list .json => "Input should be a valid array"
  | record .values n => s!"Input should be a valid dictionary or instance of {n}"
  | record .json _ => "Input should be an object"
  | object .values => "Input should be a valid dictionary or object to extract fields from"
  | object .json => "Input should be an object"
  | noTag r => s!"Unable to extract tag using discriminator {r}"
  | unknownTag t r e =>
      s!"Input tag '{t}' found using {r} does not match any of the expected tags: {e}"
  | path => "Input is not a valid path for <class 'pathlib.Path'>"
  | json => "Invalid JSON"
  | refused why => s!"Value error, {why}"

end Schema

structure Issue where
  place : List Step
  fault : Schema.Fault
  deriving Repr, DecidableEq

def Step.text : Step → String
  | key n => n
  | index i => toString i

def Step.ofKey : Value → Step
  | .str s => .key s
  | .int n => if -Int.pow 2 63 ≤ n ∧ n < Int.pow 2 63 then .index n else .key (toString n)
  | .bool b => .index (if b then 1 else 0)
  | v => .key v.quotedText

end BotApi
