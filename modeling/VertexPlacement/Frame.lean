import VertexPlacement.Quadrature

namespace VertexPlacement

/-- A dimension that is asked for, with the text that messages quote it by. -/
structure Dimension where
  value : Int
  quote : String

def Dimension.ofInt (n : Int) : Dimension := ⟨n, toString n⟩

structure Frame where
  label : String
  dim : Nat
  spacedim : Nat
  dimQuote : String
  spacedimQuote : String
  smooth : Bool
  dim_supported : dim = 1 ∨ dim = 2 ∨ dim = 3
  dim_le_spacedim : dim ≤ spacedim

namespace Frame

variable {α : Type}

def make (label : String) (dim spacedim : Dimension) (smooth : Bool) : Except (Fault α) Frame :=
  if hd : dim.value = 1 ∨ dim.value = 2 ∨ dim.value = 3 then
    if hs : dim.value ≤ spacedim.value then
      .ok ⟨label, dim.value.toNat, spacedim.value.toNat, dim.quote, spacedim.quote, smooth,
        by omega, by omega⟩
    else .error (.spacedimTooSmall spacedim.quote dim.quote)
  else .error (.dimUnsupported dim.quote)

def point (f : Frame) (t : Tensor α) : Except (Fault α) (Vector α f.spacedim) :=
  asPoint t f.spacedim f.spacedimQuote

def accept (f : Frame) (q : Quadrature α) : Except (Fault α) (List (Sample α f.spacedim)) :=
  if h : q.spacedim = f.spacedim then .ok (h ▸ q.samples)
  else .error (.mismatch (.quadrature (toString q.spacedim) f.spacedimQuote))

end Frame

end VertexPlacement
