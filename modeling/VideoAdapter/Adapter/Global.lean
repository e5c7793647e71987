import Mathlib.Data.List.Basic

namespace VideoAdapter.Adapter

def LEN : Nat := 62

def g_arrCharElem : List Char :=
  "0123456789ABCDEFGHIJKLMNOPQRSTUVWXYZabcdefghijklmnopqrstuvwxyz".toList

-- `draws i` is the i-th value that `rand()` returns after `srand((unsigned)time(0))`,
-- so calls within one second see the same draws.
def generalSeqnumber (draws : Nat → Nat) : Int := (draws 0 % 10000 : Nat)

def generalToken (draws : Nat → Nat) (len : Nat) : String :=
  String.ofList ((List.range len).map fun i => g_arrCharElem.getD (draws i % LEN) '0')

theorem generalToken_ne_empty (draws : Nat → Nat) (len : Nat) (hlen : 0 < len) :
    generalToken draws len ≠ "" := by
  intro he
  have hl := congrArg (fun s => s.toList.length) he
  simp [generalToken] at hl
  omega

end VideoAdapter.Adapter
