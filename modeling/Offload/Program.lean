import Offload.Instruction
import Offload.Text.Lines

/-!
# Programs

A program is a header and a body. The header gives the numbers of devices, tasks and event lists and
the devices to load; the body is a list of instructions. Here are the bytes and the listing of a
program, and a draft to which items are added one by one.
-/

namespace Offload

/-- What a program says about itself before its body. -/
structure Header where
  devices : Nat
  tasks : Nat
  eventLists : Nat
  /-- The devices to load, in the order of the stream. -/
  contexts : List Nat
  deriving DecidableEq, Repr

namespace Header

def encode (h : Header) : Bytes :=
  Opcode.setup.byte :: (Instruction.encodeIndex h.devices ++ Instruction.encodeIndex h.tasks ++
    Instruction.encodeIndex h.eventLists ++
    h.contexts.flatMap (fun device => Opcode.context.byte :: Instruction.encodeIndex device) ++
    [Opcode.enter.byte])

def lines (h : Header) : List String :=
  (Opcode.setup.mnemonic ++ " " ++ toString h.devices ++ " " ++ toString h.tasks ++ " " ++
      toString h.eventLists) ::
    h.contexts.map (fun device => Opcode.context.mnemonic ++ " " ++ toString device) ++
    [Opcode.enter.mnemonic]

end Header

/-- A header and a body. -/
structure Program where
  header : Header
  body : List Instruction
  deriving DecidableEq, Repr

namespace Program

def encode (p : Program) : Bytes := p.header.encode ++ p.body.flatMap Instruction.encode

def lines (p : Program) : List String := p.header.lines ++ p.body.map Instruction.text

/-- The listing of a program: every line ends in a line feed. -/
def listing (p : Program) : String := Text.paragraph p.lines

end Program

/-- A program under construction: a header, and the bytes of the body so far. -/
structure Draft where
  header : Header
  body : Bytes := []
  deriving DecidableEq, Repr

namespace Draft

def new (devices tasks eventLists : Nat) : Draft :=
  { header := { devices, tasks, eventLists, contexts := [] } }

def context (d : Draft) (device : Nat) : Draft :=
  { d with header := { d.header with contexts := d.header.contexts ++ [device] } }

def instruction (d : Draft) (i : Instruction) : Draft := { d with body := d.body ++ i.encode }

def raw (d : Draft) (b : UInt8) : Draft := { d with body := d.body ++ [b] }

def build (d : Draft) : Bytes := d.header.encode ++ d.body

end Draft

end Offload
