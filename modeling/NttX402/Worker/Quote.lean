import NttX402.Worker.Types

namespace NttX402.Worker

def priceMicrosFor (degreeLog2 : UInt8) : UInt64 :=
  if degreeLog2 ≤ 8 then 1000
  else if degreeLog2 ≤ 12 then 10000
  else if degreeLog2 ≤ 16 then 100000
  else 1000000

def quoteFor (degree : PolyDegreeLog2) (cap : MaxDegreeLog2) :
    Except OutOfTierError NttCallPriceMicrosUsdc :=
  if degree.get > cap.get then .error ⟨degree.get, cap.get⟩
  else .ok ⟨priceMicrosFor degree.get⟩

theorem quoteFor_ok_iff (degree : PolyDegreeLog2) (cap : MaxDegreeLog2)
    (price : NttCallPriceMicrosUsdc) :
    quoteFor degree cap = .ok price ↔
      degree.get ≤ cap.get ∧ price = ⟨priceMicrosFor degree.get⟩ := by
  unfold quoteFor
  split
  · rename_i above
    simp [UInt8.not_le.mpr above]
  · rename_i within
    simp [UInt8.not_lt.mp within, eq_comm]

theorem quoteFor_error_iff (degree : PolyDegreeLog2) (cap : MaxDegreeLog2) (e : OutOfTierError) :
    quoteFor degree cap = .error e ↔ cap.get < degree.get ∧ e = ⟨degree.get, cap.get⟩ := by
  unfold quoteFor
  split
  · rename_i above
    simp [above, eq_comm]
  · rename_i within
    simp [within]

end NttX402.Worker
