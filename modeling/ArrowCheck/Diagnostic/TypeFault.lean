import ArrowCheck.Diagnostic.Basic
import ArrowCheck.Typing.Fault

namespace ArrowCheck

def hint? : String → Option String
  | "E_BIN_ADD_MISMATCH" => some "both operands of '+' must have the same type"
  | "E_BIN_MUL_OPERAND" => some "'*' only accepts numbers"
  | "E_TERNARY_TEST_NOT_BOOL" => some "the condition of a ternary must be a boolean"
  | "E_ARRAY_ELEMENT_MISMATCH" => some "all elements of an array literal must share one type"
  | "E_OBJECT_FIELD_MISSING" => some "add the missing field to the object literal"
  | "E_UNION_NO_MATCH" => some "the value must match one of the union members"
  | _ => none

/-- The diagnostic of a fault in the named text: labelled at the node, with the hint of its code. -/
def TypeDiagnostic.toDiagnostic (d : TypeDiagnostic) (file : String) : Diagnostic where
  severity := .error
  code := some d.fault.code
  message := d.fault.message
  labels := (d.span.map fun span => Label.mk file span d.fault.label).toList
  remarks := ((hint? d.fault.code).map (Remark.mk .help)).toList

end ArrowCheck
