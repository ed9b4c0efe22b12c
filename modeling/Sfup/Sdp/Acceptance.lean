import Sfup.Sdp.Accesses

/-! When a text is accepted: its lines have the pieces that their branches read, and one of them gives a user name. -/
namespace Sfup.Sdp.Parser
open SdpInfo

/-- The pieces that the branches read of a line are there. Whether a source is read depends on the lines before. -/
def Readable (line : Str) : Prop :=
  ∀ b ∈ Branch.all, b ≠ .ssrc → b.readable line (start (SdpInfo.new .sendRecv .sendRecv) [])

instance {line : Str} : Decidable (Readable line) :=
  inferInstanceAs (Decidable (∀ b ∈ Branch.all, b ≠ .ssrc →
    b.readable line (start (SdpInfo.new .sendRecv .sendRecv) []) = true))

section Turns
variable {b : Branch} {line : Str} {c c' : Context} {xs : List (Branch × Str)}

end Turns

section Lines
variable {info : SdpInfo} {sdp media line : Str} {b : Branch}

end Lines
end Sfup.Sdp.Parser
