/-
ScriptOutline/Module/Emission.lean

The last change before classes are emitted: each class gets a method that answers its meta
class, with a body of raw instructions.
-/
import ScriptOutline.Code.Declaration

namespace ScriptOutline

/-- The method that answers the meta class. -/
def metaClassAccessor : String := "$getStaticMetaClass"

/-- Asks the object for its class, and takes the meta class that is stored for it or makes
it. -/
def metaClassInstructions (className : String) : List String :=
  ["aload 0", "invokevirtual Object.getClass", "ldc " ++ className, "if_acmpeq cached",
    "invokestatic ScriptBytecodeAdapter.initMetaClass", "areturn",
    "cached: getstatic $staticClassInfo.getMetaClass", "areturn"]

def metaClassMethod (className : String) : Method :=
  .generated metaClassAccessor { visibility := some .heirs } (.named "MetaClass") []
    (.block [.unwritten (.ret (.unwritten (.bytecode (metaClassInstructions className))))])

/-- A class with its meta class method, unless it has been through this before. -/
def CompiledClass.emit (c : CompiledClass) : CompiledClass :=
  if c.generated then c
  else
    { c with
      methods :=
        if c.hasMethod metaClassAccessor 0 then c.methods
        else c.methods ++ [metaClassMethod c.name]
      generated := true }

def CompiledModule.emit (m : CompiledModule) : CompiledModule :=
  { m with classes := m.classes.map CompiledClass.emit }

end ScriptOutline
