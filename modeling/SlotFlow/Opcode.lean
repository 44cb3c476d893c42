import SlotFlow.Text.Decimal

/-!
# Opcodes

The canonical opcodes of the Java virtual machine. Short forms and the wide forms do
not occur: a record names the canonical opcode and carries its operand.

Main definitions:

* `Opcode`: the opcodes, in byte order;
* `Shape`: which operands an opcode takes;
* `Opcode.entry`: byte, mnemonic and shape of each opcode;
* `Opcode.endsFlow`: whether the next record is not reached from this one.

Main statements:

* `Opcode.mem_all`: the list of all opcodes misses none;
* `Opcode.ofMnemonic_mnemonic`: looking a mnemonic up gives its opcode.
-/

namespace SlotFlow

/-- Which operands an opcode takes in a record. -/
inductive Shape where
  | bare
  | integer
  | slot
  | increment
  | typed
  | field
  | method
  | callSite
  | jump
  | constant
  | table
  | lookup
  | multiArray
deriving DecidableEq

/-- The name of a shape in messages. -/
def Shape.name : Shape → String
  | bare => "None"
  | integer => "Int"
  | slot => "Var"
  | increment => "Iinc"
  | typed => "Type"
  | field => "Field"
  | method => "Method"
  | callSite => "InvokeDynamic"
  | jump => "Jump"
  | constant => "Ldc"
  | table => "TableSwitch"
  | lookup => "LookupSwitch"
  | multiArray => "MultiANewArray"

/-- The canonical opcodes. -/
inductive Opcode where
  | nop
  | aconstNull
  | iconstM1
  | iconst0
  | iconst1
  | iconst2
  | iconst3
  | iconst4
  | iconst5
  | lconst0
  | lconst1
  | fconst0
  | fconst1
  | fconst2
  | dconst0
  | dconst1
  | bipush
  | sipush
  | ldc
  | iload
  | lload
  | fload
  | dload
  | aload
  | iaload
  | laload
  | faload
  | daload
  | aaload
  | baload
  | caload
  | saload
  | istore
  | lstore
  | fstore
  | dstore
  | astore
  | iastore
  | lastore
  | fastore
  | dastore
  | aastore
  | bastore
  | castore
  | sastore
  | pop
  | pop2
  | dup
  | dupX1
  | dupX2
  | dup2
  | dup2X1
  | dup2X2
  | swap
  | iadd
  | ladd
  | fadd
  | dadd
  | isub
  | lsub
  | fsub
  | dsub
  | imul
  | lmul
  | fmul
  | dmul
  | idiv
  | ldiv
  | fdiv
  | ddiv
  | irem
  | lrem
  | frem
  | drem
  | ineg
  | lneg
  | fneg
  | dneg
  | ishl
  | lshl
  | ishr
  | lshr
  | iushr
  | lushr
  | iand
  | land
  | ior
  | lor
  | ixor
  | lxor
  | iinc
  | i2l
  | i2f
  | i2d
  | l2i
  | l2f
  | l2d
  | f2i
  | f2l
  | f2d
  | d2i
  | d2l
  | d2f
  | i2b
  | i2c
  | i2s
  | lcmp
  | fcmpl
  | fcmpg
  | dcmpl
  | dcmpg
  | ifeq
  | ifne
  | iflt
  | ifge
  | ifgt
  | ifle
  | ifIcmpeq
  | ifIcmpne
  | ifIcmplt
  | ifIcmpge
  | ifIcmpgt
  | ifIcmple
  | ifAcmpeq
  | ifAcmpne
  | goto
  | jsr
  | ret
  | tableswitch
  | lookupswitch
  | ireturn
  | lreturn
  | freturn
  | dreturn
  | areturn
  | returnVoid
  | getstatic
  | putstatic
  | getfield
  | putfield
  | invokevirtual
  | invokespecial
  | invokestatic
  | invokeinterface
  | invokedynamic
  | newObject
  | newarray
  | anewarray
  | arraylength
  | athrow
  | checkcast
  | instanceof
  | monitorenter
  | monitorexit
  | multianewarray
  | ifnull
  | ifnonnull
deriving DecidableEq

namespace Opcode

/-- Byte, mnemonic and shape of an opcode. -/
structure Entry where
  byte : UInt8
  mnemonic : String
  shape : Shape

/-- The table of opcodes. -/
def entry : Opcode → Entry
  | nop => ⟨0x00, "nop", .bare⟩
  | aconstNull => ⟨0x01, "aconst_null", .bare⟩
  | iconstM1 => ⟨0x02, "iconst_m1", .bare⟩
  | iconst0 => ⟨0x03, "iconst_0", .bare⟩
  | iconst1 => ⟨0x04, "iconst_1", .bare⟩
  | iconst2 => ⟨0x05, "iconst_2", .bare⟩
  | iconst3 => ⟨0x06, "iconst_3", .bare⟩
  | iconst4 => ⟨0x07, "iconst_4", .bare⟩
  | iconst5 => ⟨0x08, "iconst_5", .bare⟩
  | lconst0 => ⟨0x09, "lconst_0", .bare⟩
  | lconst1 => ⟨0x0a, "lconst_1", .bare⟩
  | fconst0 => ⟨0x0b, "fconst_0", .bare⟩
  | fconst1 => ⟨0x0c, "fconst_1", .bare⟩
  | fconst2 => ⟨0x0d, "fconst_2", .bare⟩
  | dconst0 => ⟨0x0e, "dconst_0", .bare⟩
  | dconst1 => ⟨0x0f, "dconst_1", .bare⟩
  | bipush => ⟨0x10, "bipush", .integer⟩
  | sipush => ⟨0x11, "sipush", .integer⟩
  | ldc => ⟨0x12, "ldc", .constant⟩
  | iload => ⟨0x15, "iload", .slot⟩
  | lload => ⟨0x16, "lload", .slot⟩
  | fload => ⟨0x17, "fload", .slot⟩
  | dload => ⟨0x18, "dload", .slot⟩
  | aload => ⟨0x19, "aload", .slot⟩
  | iaload => ⟨0x2e, "iaload", .bare⟩
  | laload => ⟨0x2f, "laload", .bare⟩
  | faload => ⟨0x30, "faload", .bare⟩
  | daload => ⟨0x31, "daload", .bare⟩
  | aaload => ⟨0x32, "aaload", .bare⟩
  | baload => ⟨0x33, "baload", .bare⟩
  | caload => ⟨0x34, "caload", .bare⟩
  | saload => ⟨0x35, "saload", .bare⟩
  | istore => ⟨0x36, "istore", .slot⟩
  | lstore => ⟨0x37, "lstore", .slot⟩
  | fstore => ⟨0x38, "fstore", .slot⟩
  | dstore => ⟨0x39, "dstore", .slot⟩
  | astore => ⟨0x3a, "astore", .slot⟩
  | iastore => ⟨0x4f, "iastore", .bare⟩
  | lastore => ⟨0x50, "lastore", .bare⟩
  | fastore => ⟨0x51, "fastore", .bare⟩
  | dastore => ⟨0x52, "dastore", .bare⟩
  | aastore => ⟨0x53, "aastore", .bare⟩
  | bastore => ⟨0x54, "bastore", .bare⟩
  | castore => ⟨0x55, "castore", .bare⟩
  | sastore => ⟨0x56, "sastore", .bare⟩
  | pop => ⟨0x57, "pop", .bare⟩
  | pop2 => ⟨0x58, "pop2", .bare⟩
  | dup => ⟨0x59, "dup", .bare⟩
  | dupX1 => ⟨0x5a, "dup_x1", .bare⟩
  | dupX2 => ⟨0x5b, "dup_x2", .bare⟩
  | dup2 => ⟨0x5c, "dup2", .bare⟩
  | dup2X1 => ⟨0x5d, "dup2_x1", .bare⟩
  | dup2X2 => ⟨0x5e, "dup2_x2", .bare⟩
  | swap => ⟨0x5f, "swap", .bare⟩
  | iadd => ⟨0x60, "iadd", .bare⟩
  | ladd => ⟨0x61, "ladd", .bare⟩
  | fadd => ⟨0x62, "fadd", .bare⟩
  | dadd => ⟨0x63, "dadd", .bare⟩
  | isub => ⟨0x64, "isub", .bare⟩
  | lsub => ⟨0x65, "lsub", .bare⟩
  | fsub => ⟨0x66, "fsub", .bare⟩
  | dsub => ⟨0x67, "dsub", .bare⟩
  | imul => ⟨0x68, "imul", .bare⟩
  | lmul => ⟨0x69, "lmul", .bare⟩
  | fmul => ⟨0x6a, "fmul", .bare⟩
  | dmul => ⟨0x6b, "dmul", .bare⟩
  | idiv => ⟨0x6c, "idiv", .bare⟩
  | ldiv => ⟨0x6d, "ldiv", .bare⟩
  | fdiv => ⟨0x6e, "fdiv", .bare⟩
  | ddiv => ⟨0x6f, "ddiv", .bare⟩
  | irem => ⟨0x70, "irem", .bare⟩
  | lrem => ⟨0x71, "lrem", .bare⟩
  | frem => ⟨0x72, "frem", .bare⟩
  | drem => ⟨0x73, "drem", .bare⟩
  | ineg => ⟨0x74, "ineg", .bare⟩
  | lneg => ⟨0x75, "lneg", .bare⟩
  | fneg => ⟨0x76, "fneg", .bare⟩
  | dneg => ⟨0x77, "dneg", .bare⟩
  | ishl => ⟨0x78, "ishl", .bare⟩
  | lshl => ⟨0x79, "lshl", .bare⟩
  | ishr => ⟨0x7a, "ishr", .bare⟩
  | lshr => ⟨0x7b, "lshr", .bare⟩
  | iushr => ⟨0x7c, "iushr", .bare⟩
  | lushr => ⟨0x7d, "lushr", .bare⟩
  | iand => ⟨0x7e, "iand", .bare⟩
  | land => ⟨0x7f, "land", .bare⟩
  | ior => ⟨0x80, "ior", .bare⟩
  | lor => ⟨0x81, "lor", .bare⟩
  | ixor => ⟨0x82, "ixor", .bare⟩
  | lxor => ⟨0x83, "lxor", .bare⟩
  | iinc => ⟨0x84, "iinc", .increment⟩
  | i2l => ⟨0x85, "i2l", .bare⟩
  | i2f => ⟨0x86, "i2f", .bare⟩
  | i2d => ⟨0x87, "i2d", .bare⟩
  | l2i => ⟨0x88, "l2i", .bare⟩
  | l2f => ⟨0x89, "l2f", .bare⟩
  | l2d => ⟨0x8a, "l2d", .bare⟩
  | f2i => ⟨0x8b, "f2i", .bare⟩
  | f2l => ⟨0x8c, "f2l", .bare⟩
  | f2d => ⟨0x8d, "f2d", .bare⟩
  | d2i => ⟨0x8e, "d2i", .bare⟩
  | d2l => ⟨0x8f, "d2l", .bare⟩
  | d2f => ⟨0x90, "d2f", .bare⟩
  | i2b => ⟨0x91, "i2b", .bare⟩
  | i2c => ⟨0x92, "i2c", .bare⟩
  | i2s => ⟨0x93, "i2s", .bare⟩
  | lcmp => ⟨0x94, "lcmp", .bare⟩
  | fcmpl => ⟨0x95, "fcmpl", .bare⟩
  | fcmpg => ⟨0x96, "fcmpg", .bare⟩
  | dcmpl => ⟨0x97, "dcmpl", .bare⟩
  | dcmpg => ⟨0x98, "dcmpg", .bare⟩
  | ifeq => ⟨0x99, "ifeq", .jump⟩
  | ifne => ⟨0x9a, "ifne", .jump⟩
  | iflt => ⟨0x9b, "iflt", .jump⟩
  | ifge => ⟨0x9c, "ifge", .jump⟩
  | ifgt => ⟨0x9d, "ifgt", .jump⟩
  | ifle => ⟨0x9e, "ifle", .jump⟩
  | ifIcmpeq => ⟨0x9f, "if_icmpeq", .jump⟩
  | ifIcmpne => ⟨0xa0, "if_icmpne", .jump⟩
  | ifIcmplt => ⟨0xa1, "if_icmplt", .jump⟩
  | ifIcmpge => ⟨0xa2, "if_icmpge", .jump⟩
  | ifIcmpgt => ⟨0xa3, "if_icmpgt", .jump⟩
  | ifIcmple => ⟨0xa4, "if_icmple", .jump⟩
  | ifAcmpeq => ⟨0xa5, "if_acmpeq", .jump⟩
  | ifAcmpne => ⟨0xa6, "if_acmpne", .jump⟩
  | goto => ⟨0xa7, "goto", .jump⟩
  | jsr => ⟨0xa8, "jsr", .jump⟩
  | ret => ⟨0xa9, "ret", .slot⟩
  | tableswitch => ⟨0xaa, "tableswitch", .table⟩
  | lookupswitch => ⟨0xab, "lookupswitch", .lookup⟩
  | ireturn => ⟨0xac, "ireturn", .bare⟩
  | lreturn => ⟨0xad, "lreturn", .bare⟩
  | freturn => ⟨0xae, "freturn", .bare⟩
  | dreturn => ⟨0xaf, "dreturn", .bare⟩
  | areturn => ⟨0xb0, "areturn", .bare⟩
  | returnVoid => ⟨0xb1, "return", .bare⟩
  | getstatic => ⟨0xb2, "getstatic", .field⟩
  | putstatic => ⟨0xb3, "putstatic", .field⟩
  | getfield => ⟨0xb4, "getfield", .field⟩
  | putfield => ⟨0xb5, "putfield", .field⟩
  | invokevirtual => ⟨0xb6, "invokevirtual", .method⟩
  | invokespecial => ⟨0xb7, "invokespecial", .method⟩
  | invokestatic => ⟨0xb8, "invokestatic", .method⟩
  | invokeinterface => ⟨0xb9, "invokeinterface", .method⟩
  | invokedynamic => ⟨0xba, "invokedynamic", .callSite⟩
  | newObject => ⟨0xbb, "new", .typed⟩
  | newarray => ⟨0xbc, "newarray", .integer⟩
  | anewarray => ⟨0xbd, "anewarray", .typed⟩
  | arraylength => ⟨0xbe, "arraylength", .bare⟩
  | athrow => ⟨0xbf, "athrow", .bare⟩
  | checkcast => ⟨0xc0, "checkcast", .typed⟩
  | instanceof => ⟨0xc1, "instanceof", .typed⟩
  | monitorenter => ⟨0xc2, "monitorenter", .bare⟩
  | monitorexit => ⟨0xc3, "monitorexit", .bare⟩
  | multianewarray => ⟨0xc5, "multianewarray", .multiArray⟩
  | ifnull => ⟨0xc6, "ifnull", .jump⟩
  | ifnonnull => ⟨0xc7, "ifnonnull", .jump⟩

/-- The byte that stands for the opcode in a class file. -/
def byte
    (op : Opcode) :
    UInt8 :=
  op.entry.byte

/-- The name of the opcode in a listing. -/
def mnemonic
    (op : Opcode) :
    String :=
  op.entry.mnemonic

/-- The operands that the opcode takes. -/
def shape
    (op : Opcode) :
    Shape :=
  op.entry.shape

/-- Every opcode, in byte order. -/
def all : List Opcode :=
  [
    nop, aconstNull, iconstM1, iconst0, iconst1, iconst2, iconst3, iconst4, iconst5,
    lconst0, lconst1, fconst0, fconst1, fconst2, dconst0, dconst1, bipush, sipush, ldc,
    iload, lload, fload, dload, aload, iaload, laload, faload, daload, aaload, baload,
    caload, saload, istore, lstore, fstore, dstore, astore, iastore, lastore, fastore,
    dastore, aastore, bastore, castore, sastore, pop, pop2, dup, dupX1, dupX2, dup2,
    dup2X1, dup2X2, swap, iadd, ladd, fadd, dadd, isub, lsub, fsub, dsub, imul, lmul, fmul,
    dmul, idiv, ldiv, fdiv, ddiv, irem, lrem, frem, drem, ineg, lneg, fneg, dneg, ishl,
    lshl, ishr, lshr, iushr, lushr, iand, land, ior, lor, ixor, lxor, iinc, i2l, i2f, i2d,
    l2i, l2f, l2d, f2i, f2l, f2d, d2i, d2l, d2f, i2b, i2c, i2s, lcmp, fcmpl, fcmpg, dcmpl,
    dcmpg, ifeq, ifne, iflt, ifge, ifgt, ifle, ifIcmpeq, ifIcmpne, ifIcmplt, ifIcmpge,
    ifIcmpgt, ifIcmple, ifAcmpeq, ifAcmpne, goto, jsr, ret, tableswitch, lookupswitch,
    ireturn, lreturn, freturn, dreturn, areturn, returnVoid, getstatic, putstatic,
    getfield, putfield, invokevirtual, invokespecial, invokestatic, invokeinterface,
    invokedynamic, newObject, newarray, anewarray, arraylength, athrow, checkcast,
    instanceof, monitorenter, monitorexit, multianewarray, ifnull,
    ifnonnull]

/-- The opcode of a byte. -/
def ofByte?
    (b : UInt8) :
    Option Opcode :=
  all.find? fun op => op.byte == b

/-- The opcode of a mnemonic; only canonical names have one. -/
def ofMnemonic?
    (name : String) :
    Option Opcode :=
  all.find? fun op => op.mnemonic == name

/-- Whether the opcode leaves the method with or without a value. -/
def isReturn : Opcode → Bool
  | ireturn | lreturn | freturn | dreturn | areturn | returnVoid => true
  | _ => false

/-- Whether control never falls through to the next record. -/
def endsFlow : Opcode → Bool
  | athrow | goto | tableswitch | lookupswitch => true
  | op => op.isReturn

/-- Whether the opcode calls or leaves a subroutine. -/
def isSubroutine : Opcode → Bool
  | jsr | ret => true
  | _ => false

/-- The list of all opcodes misses none. -/
theorem mem_all
    (op : Opcode) :
    op ∈ all := by
  have h : all[op.ctorIdx]? = some op := by
    cases op <;> rfl
  exact List.mem_of_getElem? h

/-- The opcode of a mnemonic is the one that has the mnemonic. -/
theorem ofMnemonic_mnemonic
    (op : Opcode) :
    ofMnemonic? op.mnemonic = some op := by
  have h : ∀ op ∈ all, ofMnemonic? op.mnemonic = some op := by
    decide +kernel
  exact h op (mem_all op)

end Opcode
end SlotFlow
