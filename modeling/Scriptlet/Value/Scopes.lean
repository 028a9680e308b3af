import Scriptlet.Value.Basic
import Std.Data.TreeMap

/-! Frames of variables. A frame may lie inside another, older one; a name that it does not bind is
looked for there. Frames are never given up, so functions can keep the one they were declared in. -/

namespace Scriptlet

/-- Names and what they stand for, in the order of the names. -/
abbrev Table (α : Type) := Std.TreeMap String α

/-- The variables of a frame, and the frame around it. -/
structure Frame where
  parent : Option FrameId
  bindings : Table Value

/-- All frames, the oldest first. -/
structure Scopes where
  frames : Array Frame

namespace Scopes

/-- The frame of the global variables, which is the first one. -/
def globals : FrameId := 0

def empty : Scopes := ⟨#[]⟩

/-- Adds a frame without variables, and gives its index. -/
def push (s : Scopes) (parent : Option FrameId) : FrameId × Scopes :=
  (s.frames.size, ⟨s.frames.push ⟨parent, ∅⟩⟩)

def child (s : Scopes) (parent : FrameId) : FrameId × Scopes :=
  s.push (some parent)

/-- Adds a frame that lies in no other. -/
def root (s : Scopes) : FrameId × Scopes :=
  s.push none

def update (s : Scopes) (f : FrameId) (change : Table Value → Table Value) : Scopes :=
  ⟨s.frames.modify f fun frame => { frame with bindings := change frame.bindings }⟩

/-- Binds a name in a frame, whether it is bound there or not. -/
def define (s : Scopes) (f : FrameId) (name : String) (value : Value) : Scopes :=
  s.update f (·.insert name value)

/-- What the frame itself binds the name to. -/
def local? (s : Scopes) (f : FrameId) (name : String) : Option Value :=
  s.frames[f]?.bind (·.bindings[name]?)

def remove (s : Scopes) (f : FrameId) (name : String) : Scopes :=
  s.update f (·.erase name)

/-- The frame around a frame. Only an older frame counts, so that there are finitely many. -/
def parent? (s : Scopes) (f : FrameId) : Option { p : FrameId // p < f } :=
  match s.frames[f]?.bind (·.parent) with
  | some p => if h : p < f then some ⟨p, h⟩ else none
  | none => none

/-- What a name stands for in a frame or the frames around it. -/
def get? (s : Scopes) (f : FrameId) (name : String) : Option Value :=
  match s.local? f name with
  | some value => some value
  | none =>
    match s.parent? f with
    | some ⟨p, _⟩ => s.get? p name
    | none => none
termination_by f

/-- The nearest frame that binds a name: the frame itself or one around it. -/
def owner? (s : Scopes) (f : FrameId) (name : String) : Option FrameId :=
  match s.local? f name with
  | some _ => some f
  | none =>
    match s.parent? f with
    | some ⟨p, _⟩ => s.owner? p name
    | none => none
termination_by f

/-- Rebinds a name in the nearest frame that binds it, if one does. -/
def assign? (s : Scopes) (f : FrameId) (name : String) (value : Value) : Option Scopes :=
  match s.owner? f name with
  | some owner => some (s.define owner name value)
  | none => none

def contains (s : Scopes) (f : FrameId) (name : String) : Bool :=
  (s.local? f name).isSome ||
    match s.parent? f with
    | some ⟨p, _⟩ => s.contains p name
    | none => false
termination_by f

end Scopes

end Scriptlet
