/-! # Machine words -/

namespace Leasehold.Number

/-- The greatest 64-bit word with a sign. -/
def maxWord : Int := 9223372036854775807

end Leasehold.Number
