/-!
# Sources of element ids

An id source is asked for one id at a time and keeps a state. A numbered source writes its stem
and a counter; several of them are one family when they step the same counter.
-/

namespace DataBind

structure IdSource (σ : Type) where
  next : σ → String × σ

namespace IdSource

def defaultStem : String := "stickit_"

/-- Counters start here and wrap around at 64 bits. -/
def firstNumber : UInt64 := 1

def numbered (stem : String) : IdSource UInt64 where
  next count := (stem ++ toString count.toNat, count + 1)

/-- Gives the listed ids in turn, over and over. -/
def cycle (ids : List String) : IdSource Nat where
  next turn := (ids.getD (turn % ids.length) "", turn + 1)

end IdSource

end DataBind
