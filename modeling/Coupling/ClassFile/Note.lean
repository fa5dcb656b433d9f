import Coupling.ClassFile.Fault

/-!
# Remarks on a class file

Whatever is left out while a class is decoded is noted, in the order in which it is met.
-/

namespace Coupling.ClassFile

/-- What a reference in a method stands for. -/
inductive Role where
  | methodName
  | methodDescriptor
  | attributeName
  | exception
  | operand
  | localVariable
  deriving DecidableEq

/-- The words for a role. -/
def Role.words : Role → String
  | .methodName => "method name"
  | .methodDescriptor => "method descriptor"
  | .attributeName => "attribute name"
  | .exception => "exception"
  | .operand => "instruction operand"
  | .localVariable => "local variable"

/-- A remark on a class file. -/
inductive Note where
  /-- A reference leads nowhere. -/
  | unresolved (place : Text) (role : Role) (fault : Fault)
  /-- The descriptor of a method cannot be read. -/
  | badDescriptor (owner method : Text) (fault : Descriptor.Fault)
  /-- The descriptor of a local variable cannot be read. -/
  | badLocal (place descriptor : Text) (fault : Descriptor.Fault)
  /-- The class was decoded. -/
  | decoded (name : Text) (major minor methods : Nat)
  deriving DecidableEq

/-- The words for a remark. -/
def Note.message : Note → Text
  | .unresolved place role fault => place ++ s!": skipping unresolved {role.words}: {fault.message}"
  | .badDescriptor owner method fault => owner ++ "." ++ method ++ s!": skipping bad descriptor: {fault.message}"
  | .badLocal place descriptor fault =>
    place ++ s!": skipping local variable {Quoted.text descriptor}: {fault.message}"
  | .decoded name major minor methods => "decoded " ++ name ++ s!" (v{major}.{minor}): {methods} methods"

end Coupling.ClassFile
