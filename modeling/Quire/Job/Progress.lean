/-! How far a job has come. -/
namespace Quire.Progress

/-- The share of the steps that are done in per cent, to two places; nothing of nothing is
zero. -/
def percent (done total : UInt32) : Float :=
  if total == 0 then 0
  else (done.toNat.toFloat / total.toNat.toFloat * 10000).round / 100

end Quire.Progress
