import LoxSyntax.Diagnostic.Fault

/-! # Diagnostics

A diagnostic is the report of one fault: a line, a place on it and a message, shown as one line of
text. `Diagnostics` collects them in the order in which they are reported, until they are cleared.
-/

namespace LoxSyntax

/-- The report of a fault. -/
structure Diagnostic where
  line : Nat
  location : Location
  message : String
deriving DecidableEq

def Diagnostic.text (diagnostic : Diagnostic) : String :=
  "[line " ++ toString diagnostic.line ++ "] Error" ++ diagnostic.location.text ++ ": " ++
    diagnostic.message

def Fault.toDiagnostic (fault : Fault) : Diagnostic := ⟨fault.line, fault.location, fault.message⟩

/-- The reports made so far, in order. -/
structure Diagnostics where
  reports : Array Diagnostic
deriving DecidableEq

namespace Diagnostics

def empty : Diagnostics := ⟨#[]⟩

def toList (diagnostics : Diagnostics) : List Diagnostic := diagnostics.reports.toList

def length (diagnostics : Diagnostics) : Nat := diagnostics.reports.size

def hadError (diagnostics : Diagnostics) : Bool := !diagnostics.reports.isEmpty

def add (diagnostics : Diagnostics) (diagnostic : Diagnostic) : Diagnostics :=
  ⟨diagnostics.reports.push diagnostic⟩

def push (diagnostics : Diagnostics) (fault : Fault) : Diagnostics :=
  diagnostics.add fault.toDiagnostic

def pushAll (diagnostics : Diagnostics) (faults : List Fault) : Diagnostics :=
  faults.foldl push diagnostics

/-- Hands out every report and forgets them. -/
def take (diagnostics : Diagnostics) : List Diagnostic × Diagnostics :=
  (diagnostics.toList, empty)

@[simp] theorem toList_empty : empty.toList = [] := rfl

@[simp] theorem toList_add (diagnostics : Diagnostics) (diagnostic : Diagnostic) :
    (diagnostics.add diagnostic).toList = diagnostics.toList ++ [diagnostic] := by
  simp [toList, add]

@[simp] theorem toList_push (diagnostics : Diagnostics) (fault : Fault) :
    (diagnostics.push fault).toList = diagnostics.toList ++ [fault.toDiagnostic] :=
  toList_add diagnostics fault.toDiagnostic

@[simp] theorem toList_pushAll (diagnostics : Diagnostics) (faults : List Fault) :
    (diagnostics.pushAll faults).toList = diagnostics.toList ++ faults.map Fault.toDiagnostic := by
  induction faults generalizing diagnostics with
  | nil => simp [pushAll]
  | cons fault faults ih =>
    change ((diagnostics.push fault).pushAll faults).toList = _
    rw [ih]
    simp

@[simp] theorem length_toList (diagnostics : Diagnostics) :
    diagnostics.toList.length = diagnostics.length := by
  simp [toList, length]

theorem hadError_eq_true_iff (diagnostics : Diagnostics) :
    diagnostics.hadError = true ↔ diagnostics.toList ≠ [] := by
  simp [hadError, toList]

end Diagnostics
end LoxSyntax
