import FiveStage.Stats
import FiveStage.Decimal.Fixed
import FiveStage.Text.Column

/-!
# The report

Rates are doubles: each counter is rounded to a double before they are
divided. A rate over nothing is zero, and a share of nothing is taken as a
share of one.
-/

set_option autoImplicit false

namespace FiveStage.Stats

def toDouble (n : Count) : Float :=
  n.toNat.toUInt64.toFloat

def rate (n d : Count) : Float :=
  if d = 0 then 0 else toDouble n / toDouble d

def cpi (s : Stats) : Float :=
  rate s.cycles s.retired

def ipc (s : Stats) : Float :=
  rate s.retired s.cycles

def share (n total : Count) : String :=
  let whole := if total = 0 then 1 else total
  Text.decimal n.toNat ++ " ("
    ++ Decimal.fixed 2 (toDouble n / toDouble whole * 100) ++ "%)"

def kinds (s : Stats) : List (String × Count) :=
  [("op.alu", s.alu), ("op.load", s.loads), ("op.store", s.stores), ("op.branch", s.branches),
   ("op.system", s.system)]

def rule (c : Char) : String :=
  String.ofList (List.replicate 58 c)

def report (s : Stats) : String :=
  Text.lines
    ([rule '=',
      "RV32I PIPELINE SIMULATION STATISTICS",
      rule '=',
      "sim_cycles               " ++ Text.decimal s.cycles.toNat,
      "sim_insts                " ++ Text.decimal s.retired.toNat,
      "sim_ipc                  " ++ Decimal.fixed 4 s.ipc,
      "sim_cpi                  " ++ Decimal.fixed 4 s.cpi,
      rule '-',
      "HAZARDS",
      "  stalls.data            " ++ share s.stalls s.cycles,
      "  flushes.control        " ++ share s.flushes s.cycles,
      rule '-',
      "INSTRUCTION MIX"]
    ++ s.kinds.map (fun (name, n) => "  " ++ Text.alignLeft 22 name ++ " " ++ share n s.retired)
    ++ [rule '='])

end FiveStage.Stats
