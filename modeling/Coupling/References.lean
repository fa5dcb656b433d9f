import Coupling.ClassFile.Descriptor
import Coupling.Summary
import Coupling.TypeName

/-!
# References between classes

A class refers to the element types of all types that its methods mention, except the built-in ones: primitive types,
`void`, and the types of platform packages. The platform packages are given by prefixes such as `java.`, and a prefix
also covers the bare package that it names.
-/

namespace Coupling

/-- The prefixes of the packages that come with the platform. -/
def platformPrefixes : List Text := ["java.", "javax.", "javafx.", "jdk.", "sun.", "com.sun."]

/-- The names of the primitive types, and `void`. -/
def primitiveNames : List Text :=
  Descriptor.void :: Descriptor.Primitive.all.map fun p => (p.name : Text)

/-- Whether a prefix covers a package: the package begins with it, or is it without the dots at its end. -/
def covers (pre package : Text) : Bool :=
  pre.isPrefixOf package || package = (pre.reverse.dropWhile (· = ('.' : CodePoint))).reverse

/-- A type that is never counted as a dependency. -/
def isBuiltin (prefixes : List Text) (type : Text) : Bool :=
  primitiveNames.contains (TypeName.element type) || prefixes.any fun pre => covers pre (TypeName.package type)

/-- The element types of the types given, except built-in ones. -/
def referencesOf (prefixes types : List Text) : SortedSet Text :=
  (SortedSet.ofList (types.map TypeName.element)).filter fun t => !isBuiltin prefixes t

/-- The types that a method refers to. -/
def MethodSummary.references (prefixes : List Text) (m : MethodSummary) : SortedSet Text :=
  referencesOf prefixes m.types

/-- The types that a class refers to. -/
def ClassSummary.references (prefixes : List Text) (c : ClassSummary) : SortedSet Text :=
  referencesOf prefixes (c.methods.flatMap MethodSummary.types)

/-- The package of a class. -/
def ClassSummary.package (c : ClassSummary) : Text := TypeName.package c.name

end Coupling
