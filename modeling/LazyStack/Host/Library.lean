import LazyStack.Environment

/-!
The host library: arithmetic, text, lists, control and binding, as programs of host actions. A result
is made in the domain of the first operand, or in the domain of the environment where there is none.
-/

namespace LazyStack

namespace Program

def pop (frame : Frame) : Program Value := perform (.pop frame.stack)

def popMany (frame : Frame) (count : Int) : Program (List Value) := perform (.popMany frame.stack count)

def push (frame : Frame) (value : Value) : Program Unit := perform (.push frame.stack value)

def create (domain : DomainId) (tag : Tag) (payload : Payload) : Program Value :=
  perform (.create domain tag payload)

def expect (value : Value) (tag : Tag) (description : String) : Program Payload :=
  perform (.expect value tag description)

def unary (frame : Frame) (apply : Value → Program Value) : Program Unit := do
  let value ← pop frame
  push frame (← apply value)

def binary (frame : Frame) (apply : Value → Value → Program Value) : Program Unit := do
  let right ← pop frame
  let left ← pop frame
  push frame (← apply left right)

def call (frame : Frame) (args returns : Int) : Payload → Program Unit
  | .callable target => perform (.call target frame (some args) (some returns))
  | _ => return ()

def list (domain : DomainId) (items : List Value) : Program Value := do
  let null ← perform (.nullOf domain)
  items.foldrM (fun item rest => create domain .cell (.cell item rest)) null

end Program

open Program

def onIntegers (frame : Frame) (tag : Tag) (apply : Int → Int → Payload) : Program Unit :=
  binary frame fun left right => do
    let first ← expect left .int "left operand"
    let second ← expect right .int "right operand"
    create left.domain tag (apply first.integer second.integer)

def onNamed (frame : Frame) (description : String)
    (act : ScopeId → String → Binding → Program Unit) : Program Unit := do
  match ← popMany frame 2 with
  | [name, value] => do
      let payload ← expect name .symbol description
      act frame.scope payload.symbolName (.value value)
      push frame value
  | _ => return ()

inductive LibraryHost
  | add
  | sub
  | mul
  | lt
  | concat
  | cons
  | car
  | cdr
  | display
  | not
  | tick
  | depth
  | scope
  | dup
  | drop
  | branch
  | eval
  | apply
  | bind
  | assign
  | list
  deriving DecidableEq, Repr

namespace LibraryHost

def all : List LibraryHost :=
  [.add, .sub, .mul, .lt, .concat, .cons, .car, .cdr, .display, .not, .tick, .depth, .scope, .dup, .drop,
    .branch, .eval, .apply, .bind, .assign, .list]

def label : LibraryHost → String
  | .add => "add"
  | .sub => "sub"
  | .mul => "mul"
  | .lt => "lt"
  | .concat => "concat"
  | .cons => "cons"
  | .car => "car"
  | .cdr => "cdr"
  | .display => "show"
  | .not => "not"
  | .tick => "tick"
  | .depth => "depth"
  | .scope => "scope"
  | .dup => "dup"
  | .drop => "drop"
  | .branch => "if"
  | .eval => "eval"
  | .apply => "apply"
  | .bind => "bind"
  | .assign => "assign"
  | .list => "list"

def ofLabel? (label : String) : Option LibraryHost :=
  all.find? fun host => host.label = label

def header : LibraryHost → HostHeader
  | .add => ⟨"Add", some ⟨2, 1⟩⟩
  | .sub => ⟨"Sub", some ⟨2, 1⟩⟩
  | .mul => ⟨"Mul", some ⟨2, 1⟩⟩
  | .lt => ⟨"Less", some ⟨2, 1⟩⟩
  | .concat => ⟨"Concat", some ⟨2, 1⟩⟩
  | .cons => ⟨"MakeCons", some ⟨2, 1⟩⟩
  | .car => ⟨"Car", some ⟨1, 1⟩⟩
  | .cdr => ⟨"Cdr", some ⟨1, 1⟩⟩
  | .display => ⟨"Show", some ⟨1, 1⟩⟩
  | .not => ⟨"Not", some ⟨1, 1⟩⟩
  | .tick => ⟨"Counter", some ⟨0, 1⟩⟩
  | .depth => ⟨"Depth", some ⟨0, 1⟩⟩
  | .scope => ⟨"ScopeText", some ⟨0, 1⟩⟩
  | .dup => ⟨"Dup", some ⟨1, 2⟩⟩
  | .drop => ⟨"Drop", some ⟨1, 0⟩⟩
  | .branch => ⟨"Branch", some ⟨3, 1⟩⟩
  | .eval => ⟨"Eval", some ⟨1, 1⟩⟩
  | .apply => ⟨"Apply", some ⟨2, 1⟩⟩
  | .bind => ⟨"Bind", some ⟨2, 1⟩⟩
  | .assign => ⟨"Assign", some ⟨2, 1⟩⟩
  | .list => ⟨"Variadic", none⟩

def body (domain : DomainId) (self : HostId) : LibraryHost → HostBody
  | .add, frame, _, _ => onIntegers frame .int fun left right => .int (left + right)
  | .sub, frame, _, _ => onIntegers frame .int fun left right => .int (left - right)
  | .mul, frame, _, _ => onIntegers frame .int fun left right => .int (left * right)
  | .lt, frame, _, _ => onIntegers frame .bool fun left right => .bool (left < right)
  | .concat, frame, _, _ => binary frame fun left right => do
      let first ← expect left .text "left string"
      let second ← expect right .text "right string"
      create left.domain .text (.text (first.characters ++ second.characters))
  | .cons, frame, _, _ => binary frame fun left right => create left.domain .cell (.cell left right)
  | .car, frame, _, _ => unary frame fun value => do
      match ← expect value .cell "'car' argument" with
      | .cell head _ => return head
      | _ => return value
  | .cdr, frame, _, _ => unary frame fun value => do
      match ← expect value .cell "'cdr' argument" with
      | .cell _ tail => return tail
      | _ => return value
  | .display, frame, _, _ => unary frame fun value => do
      create value.domain .text (.text (← perform (.valueText value)))
  | .not, frame, _, _ => unary frame fun value => do
      let payload ← expect value .bool "'not' argument"
      create value.domain .bool (.bool (!payload.truth))
  | .tick, frame, _, _ => do
      let count ← perform (.count self)
      push frame (← create domain .int (.int count))
  | .depth, frame, _, _ => do push frame (← create domain .int (.int frame.depth))
  | .scope, frame, _, _ => do
      push frame (← create domain .text (.text (← perform (.scopeText frame.scope))))
  | .dup, frame, _, _ => do
      let value ← pop frame
      push frame value
      push frame value
  | .drop, frame, _, _ => do
      let _ ← pop frame
      return ()
  | .branch, frame, _, _ => do
      match ← popMany frame 3 with
      | [condition, yes, no] => do
          let chosen := if (← expect condition .bool "condition").truth then yes else no
          call frame 0 1 (← expect chosen .callable "branch")
      | _ => return ()
  | .eval, frame, _, _ => do
      let code ← expect (← pop frame) .code "'eval' argument"
      perform (.run code.steps frame)
  | .apply, frame, _, _ => do
      call frame 1 1 (← expect (← pop frame) .callable "'apply' function")
  | .bind, frame, _, _ => onNamed frame "'bind' name" fun scope name binding =>
      perform (.bind scope name binding)
  | .assign, frame, _, _ => onNamed frame "'assign' name" fun scope name binding =>
      perform (.rebind scope name binding)
  | .list, frame, args, _ => do
      push frame (← Program.list domain (← popMany frame (args.getD 0)))

end LibraryHost

def scriptedBody (pops : Nat) (pushes : List Value) : HostBody := fun frame _ _ => do
  let _ ← (List.replicate pops ()).mapM fun _ => pop frame
  pushes.forM (push frame)

def scriptedHeader (signature : Signature) : HostHeader :=
  ⟨"Scripted", some signature⟩

namespace Environment

variable (environment : Environment)

def installHost (name : String) (header : HostHeader) (body : HostId → HostBody) : Run Unit := do
  let id ← Run.newHost body
  environment.globals.bind name (.callable (.host id header))

def installLibraryHost (host : LibraryHost) : Run Unit :=
  environment.installHost host.label host.header fun self => host.body environment.domain self

/-- The count of the host that an environment ticks by. A callable that is no host counts nothing. -/
def ticks : Run Nat := do
  let label := LibraryHost.tick.label
  let binding ← environment.globals.lookup label
  match ← binding.callee label with
  | .host id _ => return ((← get).memory id).count
  | _ => return 0

end Environment

end LazyStack
