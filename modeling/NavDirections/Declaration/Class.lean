import NavDirections.Declaration.Statement

/-!
# Class declarations

What a generated class consists of: fields, methods and nested classes, all in the order in which
they are printed.  Modifiers are kept in their customary order, each at most once.
-/

namespace NavDirections

inductive Modifier where
  | publicAccess
  | protectedAccess
  | privateAccess
  | static
  | final
deriving DecidableEq

namespace Modifier

def all : List Modifier := [publicAccess, protectedAccess, privateAccess, static, final]

def keyword : Modifier → Text
  | publicAccess => "public"
  | protectedAccess => "protected"
  | privateAccess => "private"
  | static => "static"
  | final => "final"

/-- The modifiers in customary order, each once. -/
def arrange (modifiers : List Modifier) : List Modifier := all.filter (modifiers.contains ·)

end Modifier

structure Parameter where
  name : Text
  type : TypeName
deriving DecidableEq

structure Field where
  name : Text
  type : TypeName
  modifiers : List Modifier
  initializer : Option Text
deriving DecidableEq

/-- Is the field assigned only once? -/
def Field.isFinal (f : Field) : Bool := f.modifiers.contains .final

structure Method where
  name : Text
  modifiers : List Modifier
  parameters : List Parameter
  returns : Option TypeName
  statements : List Statement
  isConstructor : Bool
deriving DecidableEq

namespace Method

def isStatic (m : Method) : Bool := m.modifiers.contains .static

def fullBody (m : Method) : Except StatementFault (List Text) := m.statements.mapM (·.fullText)

/-- The method, if its statements are in order. -/
def checked (m : Method) : Except StatementFault Method := m.fullBody.map fun _ => m

end Method

structure ClassDecl where
  name : Text
  modifiers : List Modifier
  superinterfaces : List TypeName
  fields : List Field
  methods : List Method
  types : List ClassDecl

inductive MissingMember where
  | method (owner name : Text)
  | field (owner name : Text)
  | nested (owner name : Text)

def MissingMember.message : MissingMember → Text
  | method owner name => owner ++ " has no method " ++ name
  | field owner name => owner ++ " has no field " ++ name
  | nested owner name => owner ++ " has no nested type " ++ name

namespace ClassDecl

def constructor? (d : ClassDecl) : Option Method := d.methods.find? (·.isConstructor)

/-- The first method of a name that is no constructor. -/
def method (d : ClassDecl) (name : Text) : Except MissingMember Method :=
  match d.methods.find? fun m => m.name == name && !m.isConstructor with
  | some m => .ok m
  | none => .error (.method d.name name)

def field (d : ClassDecl) (name : Text) : Except MissingMember Field :=
  match d.fields.find? (·.name == name) with
  | some f => .ok f
  | none => .error (.field d.name name)

def nested (d : ClassDecl) (name : Text) : Except MissingMember ClassDecl :=
  match d.types.find? (·.name == name) with
  | some t => .ok t
  | none => .error (.nested d.name name)

mutual

def declaredNames : ClassDecl → List Text
  | ⟨name, _, _, _, _, types⟩ => name :: declaredNamesList types

/-- The names of the classes of a list and of all classes inside them. -/
def declaredNamesList : List ClassDecl → List Text
  | [] => []
  | t :: rest => declaredNames t ++ declaredNamesList rest

end

end ClassDecl

structure DirectionsFile where
  className : ClassName
  decl : ClassDecl

end NavDirections
