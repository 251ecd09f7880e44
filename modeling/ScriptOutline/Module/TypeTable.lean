/-
ScriptOutline/Module/TypeTable.lean

What a type name stands for.  A declared class goes before a built-in one, and a dotted name
that is neither stands for itself; any other name is unknown.
-/
import ScriptOutline.Code.Type

namespace ScriptOutline

/-- The classes that every script can name without declaring them. -/
def builtinTypes : List (String × String) :=
  ["void", "boolean", "byte", "char", "short", "int", "long", "float", "double"].map
      (fun name => (name, name)) ++
    ["Object", "String", "Boolean", "Integer", "Long", "Double", "Number", "Math", "System",
      "Thread", "Class", "StringBuilder", "Exception", "RuntimeException",
      "IllegalArgumentException", "IllegalStateException", "Script", "Binding", "Closure",
      "GString", "Range"].map (fun name => (name, "script.lang." ++ name)) ++
    ["BigDecimal", "BigInteger"].map (fun name => (name, "script.math." ++ name)) ++
    ["List", "ArrayList", "Map", "HashMap", "Set", "HashSet", "Date"].map
      (fun name => (name, "script.util." ++ name)) ++
    [("Pattern", "script.util.regex.Pattern"), ("File", "script.io.File"),
      ("IOException", "script.io.IOException"), ("InvokerHelper", "script.runtime.InvokerHelper")]

/-- The name is that of a qualified class. -/
def isDotted (name : String) : Bool := name.toList.contains '.'

/-- The class that a name stands for, given the names of the declared classes. -/
def resolveName (declared : List String) (name : String) : Option String :=
  if declared.contains name then some name
  else
    match builtinTypes.lookup name with
    | some builtin => some builtin
    | none => if isDotted name then some name else none

/-- The same type with the class its name stands for, or without one if it is unknown. -/
def TypeRef.resolve (declared : List String) (t : TypeRef) : TypeRef :=
  { t with resolved := resolveName declared t.name }

end ScriptOutline
