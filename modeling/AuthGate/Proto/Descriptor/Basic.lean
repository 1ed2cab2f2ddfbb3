import AuthGate.Proto.Schema
import AuthGate.Text.Quoted

set_option autoImplicit false

/-! # The format of descriptor sets

A descriptor set describes message types in messages of a schema of its own. This is that schema, and
what can be wrong with a set. -/

namespace AuthGate.Proto

/-! ## The schema of descriptor sets -/

namespace DescriptorSet

def fileType : MessageType := ⟨"File", [
  .optional 1 "name" .string, .optional 2 "package" .string, .repeated 3 "dependency" .string,
  .repeated 4 "message_type" (.message "Message"), .repeated 5 "enum_type" (.message "Enum"),
  .repeated 6 "service" (.message "Service"), .repeated 7 "extension" (.message "Field"),
  .repeated 10 "public_dependency" .int32, .repeated 11 "weak_dependency" .int32,
  .optional 12 "syntax" .string]⟩

def messageType : MessageType := ⟨"Message", [
  .optional 1 "name" .string, .repeated 2 "field" (.message "Field"),
  .repeated 3 "nested_type" (.message "Message"), .repeated 4 "enum_type" (.message "Enum"),
  .repeated 5 "extension_range" (.message "Range"), .repeated 6 "extension" (.message "Field"),
  .nested 7 "options" "MessageOptions", .repeated 8 "oneof_decl" (.message "Choice"),
  .repeated 9 "reserved_range" (.message "Range")]⟩

def fieldType : MessageType := ⟨"Field", [
  .optional 1 "name" .string, .optional 2 "extendee" .string, .optional 3 "number" .int32,
  .optional 4 "label" .int32, .optional 5 "type" .int32, .optional 6 "type_name" .string,
  .optional 7 "default_value" .string, .optional 9 "oneof_index" .int32,
  .optional 10 "json_name" .string, .optional 17 "proto3_optional" .bool]⟩

def otherTypes : List MessageType := [
  ⟨"Set", [.repeated 1 "file" (.message "File")]⟩,
  ⟨"MessageOptions", [.optional 7 "map_entry" .bool]⟩,
  ⟨"Range", [.optional 1 "start" .int32, .optional 2 "end" .int32]⟩,
  ⟨"Choice", [.optional 1 "name" .string]⟩,
  ⟨"Enum", [.optional 1 "name" .string, .repeated 2 "value" (.message "EnumValue"),
    .nested 3 "options" "EnumOptions", .repeated 4 "reserved_range" (.message "Range")]⟩,
  ⟨"EnumOptions", [.optional 2 "allow_alias" .bool]⟩,
  ⟨"EnumValue", [.optional 1 "name" .string, .optional 2 "number" .int32]⟩,
  ⟨"Service", [.optional 1 "name" .string, .repeated 2 "method" (.message "Method")]⟩,
  ⟨"Method", [.optional 1 "name" .string, .optional 2 "input_type" .string,
    .optional 3 "output_type" .string, .optional 5 "client_streaming" .bool,
    .optional 6 "server_streaming" .bool]⟩]

/-- The schema that a descriptor set is written in. -/
def schema : Schema := .ofMessages (fileType :: messageType :: fieldType :: otherTypes)

end DescriptorSet

/-! ## Faults -/

/-- Why bytes are no descriptor set. -/
inductive DescriptorFault where
  | malformed
  | unknownForm (file : String)
  | missingImport (file name : String)
  | invalidImport (file : String) (position : Int)
  | duplicateName (name : String)
  | duplicateNumber (message : String) (number : Int)
  | reservedNumber (message : String) (number : Int)
  | invalidNumber (field : String) (number : Int)
  | invalidDefault (field : String)
  | unknownType (scope name : String)
  | invalidType (scope name : String)
  | invalidChoice (field : String)
  | emptyEnumeration (name : String)
  | nonzeroFirst (name : String)
  deriving DecidableEq, Repr

/-- The wording of a fault. -/
def DescriptorFault.message : DescriptorFault → String
  | .malformed => "the bytes are no descriptor set"
  | .unknownForm file => s!"file {Text.quoted file} is written in an unknown form"
  | .missingImport file name => s!"file {Text.quoted file} imports {name}, which is missing"
  | .invalidImport file position => s!"file {Text.quoted file} has no import {position}"
  | .duplicateName name => s!"name {name} is defined twice"
  | .duplicateNumber message number => s!"number {number} is used twice in {message}"
  | .reservedNumber message number => s!"number {number} is reserved in {message}"
  | .invalidNumber field number => s!"field {field} has the invalid number {number}"
  | .invalidDefault field => s!"field {field} has an invalid default"
  | .unknownType scope name => s!"name {name} is not defined in {scope}"
  | .invalidType scope name => s!"name {name} in {scope} is of the wrong type"
  | .invalidChoice field => s!"field {field} is in an unknown choice"
  | .emptyEnumeration name => s!"enumeration {name} has no values"
  | .nonzeroFirst name => s!"the first value of enumeration {name} is not zero"

end AuthGate.Proto
