/-!
Attribute names. A field is known by its wire name and by an attribute name; the two differ where
the wire name is a reserved word or the name of something that every record already has.
-/

namespace BotApi.Catalog

def keywords : List String := [
  "False", "None", "True", "and", "as", "assert", "async", "await", "break", "class", "continue",
  "def", "del", "elif", "else", "except", "finally", "for", "from", "global", "if", "import", "in",
  "is", "lambda", "nonlocal", "not", "or", "pass", "raise", "return", "try", "while", "with",
  "yield"]

def recordMembers : List String := [
  "construct", "copy", "dict", "from_orm", "json", "model_computed_fields", "model_config",
  "model_construct", "model_copy", "model_dump", "model_dump_json", "model_extra", "model_fields",
  "model_fields_set", "model_json_schema", "model_parametrized_name", "model_post_init",
  "model_rebuild", "model_validate", "model_validate_json", "model_validate_strings", "mro",
  "parse_file", "parse_obj", "parse_raw", "register", "schema", "schema_json",
  "update_forward_refs", "validate"]

def innerMembers : List String := [
  "_abc_caches_clear", "_abc_impl", "_abc_registry_clear", "_calculate_keys",
  "_collect_bases_data", "_copy_and_set_values", "_dump_registry", "_get_value", "_iter",
  "_setattr_handler"]

def specialMembers : List String := [
  "abstractmethods", "annotations", "base", "bases", "basicsize", "call", "class",
  "class_getitem", "class_vars", "copy", "deepcopy", "delattr", "dict", "dictoffset", "dir", "doc",
  "eq", "fields", "fields_set", "flags", "format", "ge", "get_pydantic_core_schema",
  "get_pydantic_json_schema", "getattr", "getattribute", "getstate", "gt", "hash", "init",
  "init_subclass", "instancecheck", "itemsize", "iter", "le", "lt", "module", "mro", "name", "ne",
  "new", "or", "prepare", "pretty", "private_attributes", "pydantic_complete",
  "pydantic_computed_fields", "pydantic_core_schema", "pydantic_custom_init",
  "pydantic_decorators", "pydantic_extra", "pydantic_fields", "pydantic_fields_complete",
  "pydantic_fields_set", "pydantic_generic_metadata", "pydantic_init_subclass",
  "pydantic_on_complete", "pydantic_parent_namespace", "pydantic_post_init", "pydantic_private",
  "pydantic_root_model", "pydantic_serializer", "pydantic_setattr_handlers", "pydantic_validator",
  "qualname", "reduce", "reduce_ex", "replace", "repr", "repr_args", "repr_name",
  "repr_recursion", "repr_str", "rich_repr", "ror", "setattr", "setstate", "signature", "sizeof",
  "slots", "str", "subclasscheck", "subclasses", "subclasshook", "text_signature",
  "weakrefoffset"]

def takenNames : List String :=
  keywords ++ recordMembers ++ innerMembers ++ specialMembers.map fun n => "__" ++ n ++ "__"

def attributeName (wire : String) : String :=
  if takenNames.contains wire then wire ++ "_" else wire

end BotApi.Catalog
