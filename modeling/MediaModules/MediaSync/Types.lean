import Mathlib.Algebra.Order.Ring.Int
import Mathlib.Tactic.Common

/-!
# The data of a media-sync instance

Times and presentation time stamps are signed 64-bit numbers, counters and speeds unsigned 32-bit
ones. The records of the frame tables are named by numbers.
-/
namespace MediaModules.MediaSync

/-- The value an `s64` takes. -/
def s64 (x : Int) : Int := (x + 9223372036854775808) % 18446744073709551616 - 9223372036854775808

/-- The value an `s32` takes. -/
def s32 (x : Int) : Int := (x + 2147483648) % 4294967296 - 2147483648

/-- The value a `u64` takes. -/
def u64 (x : Int) : Int := x % 18446744073709551616

/-- The value a `u32` takes. -/
def u32 (x : Int) : Int := x % 4294967296

/-- `div_u64`, both arguments taken as their unsigned types. -/
def divU64 (x y : Int) : Int := u64 x / u32 y

/-- `ABSSUB`. -/
def absSub (a b : Int) : Int := if a ≥ b then s64 (a - b) else s64 (b - a)

/-- `valid_pts`. -/
def validPts (pts : Int) : Bool := pts > 0

def DEFAULT_TRIGGER_DISCONTINUE_THRESHOLD : Int := 630000

def DEFAULT_FRAME_SEGMENT_THRESHOLD : Int := 45000

/-- `mediasync_frameinfo`. -/
structure FrameInfo where
  framePts : Int := 0
  frameSystemTime : Int := 0
deriving DecidableEq, Repr

/-- `mediasync_frameinfo_inner`. -/
structure FrameInfoInner where
  framePts : Int := 0
  frameSystemTime : Int := 0
  frameid : Int := 0
  frameduration : Int := 0
  remainedduration : Int := 0
deriving DecidableEq, Repr

/-- `mediasync_cacheinfo`. -/
structure CacheInfo where
  cacheSize : Int := 0
  cacheDuration : Int := 0
deriving DecidableEq, Repr

/-- `struct frame_table_s`. -/
structure FrameTable where
  currentFrameId : Int := 0
  recs : Nat → FrameInfoInner := fun _ => {}
  mLastQueued : FrameInfoInner := {}
  mMinPtsFrame : FrameInfoInner := {}
  mCacheInfo : CacheInfo := {}
  mFirstPacket : FrameInfo := {}
  mLastProcessedPts : Int := 0
  mFrameCount : Int := 0
  mLastCheckedPts : Int := 0
  mLastCheckedFrame : FrameInfoInner := {}
  validList : List Nat := []
  freeList : List Nat := []

end MediaModules.MediaSync
