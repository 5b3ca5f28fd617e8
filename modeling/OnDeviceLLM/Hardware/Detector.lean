import Mathlib.Tactic

namespace LLM.Hardware

inductive DeviceTier where
  | lowEnd
  | midRange
  | highEnd
  deriving DecidableEq, Repr

inductive BackendType where
  | cpu
  | cuda
  | directml
  | vulkan
  | metal
  | nnapi
  | coreml
  | onnxMobile
  deriving DecidableEq, Repr

inductive OSType where
  | android
  | ios
  | windows
  | macos
  | linux
  | raspbian
  | unknown
  deriving DecidableEq, Repr

/-- The part of the detected specification that the runtime reads, with the platform it
    came from. -/
structure HardwareSpec where
  os : OSType
  totalRamBytes : UInt64
  availableRamBytes : UInt64
  supportedBackends : List BackendType
  tier : DeviceTier
  deriving DecidableEq, Repr

/-- Two successful `sysconf` results whose `long` product does not overflow. -/
structure SysconfRam where
  pages : Int
  pageSize : Int
  pages_nonneg : 0 ≤ pages
  pageSize_nonneg : 0 ≤ pageSize
  product_fits : pages * pageSize < 2^63

def SysconfRam.bytes (ram : SysconfRam) : UInt64 := UInt64.ofNat (ram.pages * ram.pageSize).toNat

/-- Each platform's `classify_tier`, with its thresholds and the RAM figure it reads. -/
def tierByThresholds (midRange highEnd ramBytes : UInt64) : DeviceTier :=
  if ramBytes < midRange then .lowEnd
  else if ramBytes < highEnd then .midRange
  else .highEnd

theorem midRange_le_of_tier {midRange highEnd ramBytes : UInt64}
    (tier : tierByThresholds midRange highEnd ramBytes = .midRange) :
    midRange.toNat ≤ ramBytes.toNat := by
  by_cases low : ramBytes < midRange
  · rw [tierByThresholds, if_pos low] at tier
    cases tier
  · exact UInt64.le_iff_toNat_le.mp (UInt64.not_lt.mp low)

theorem highEnd_le_of_tier {midRange highEnd ramBytes : UInt64}
    (tier : tierByThresholds midRange highEnd ramBytes = .highEnd) :
    highEnd.toNat ≤ ramBytes.toNat := by
  by_cases low : ramBytes < midRange
  · rw [tierByThresholds, if_pos low] at tier
    cases tier
  · by_cases middle : ramBytes < highEnd
    · rw [tierByThresholds, if_neg low, if_pos middle] at tier
      cases tier
    · exact UInt64.le_iff_toNat_le.mp (UInt64.not_lt.mp middle)

namespace AppleHardwareDetector

def classifyTier (availableRamBytes : UInt64) : DeviceTier :=
  tierByThresholds (2 * 1024 * 1024 * 1024) (8 * 1024 * 1024 * 1024) availableRamBytes

def detect (targetOsIphone : Bool) (ram : SysconfRam) : HardwareSpec :=
  let totalRamBytes := ram.bytes
  let availableRamBytes := totalRamBytes / 2
  { os := if targetOsIphone then .ios else .macos
    supportedBackends := [.cpu, .coreml, .metal]
    totalRamBytes
    availableRamBytes
    tier := classifyTier availableRamBytes }

end AppleHardwareDetector

namespace AndroidHardwareDetector

def classifyTier (totalRamBytes : UInt64) : DeviceTier :=
  tierByThresholds (3 * 1024 * 1024 * 1024) (8 * 1024 * 1024 * 1024) totalRamBytes

def detect : HardwareSpec :=
  let totalRamBytes := 2 * 1024 * 1024 * 1024
  { os := .android
    supportedBackends := [.cpu, .nnapi, .vulkan]
    totalRamBytes
    availableRamBytes := 1 * 1024 * 1024 * 1024
    tier := classifyTier totalRamBytes }

end AndroidHardwareDetector

namespace LinuxHardwareDetector

def classifyTier (totalRamBytes : UInt64) : DeviceTier :=
  tierByThresholds (4 * 1024 * 1024 * 1024) (16 * 1024 * 1024 * 1024) totalRamBytes

def detect (ram : SysconfRam) : HardwareSpec :=
  let totalRamBytes := ram.bytes
  { os := .linux
    supportedBackends := [.cpu, .cuda, .vulkan]
    totalRamBytes
    availableRamBytes := totalRamBytes / 2
    tier := classifyTier totalRamBytes }

end LinuxHardwareDetector

namespace WindowsHardwareDetector

def classifyTier (availableRamBytes : UInt64) : DeviceTier :=
  tierByThresholds (4 * 1024 * 1024 * 1024) (16 * 1024 * 1024 * 1024) availableRamBytes

def detect (ullTotalPhys ullAvailPhys : UInt64) : HardwareSpec :=
  { os := .windows
    totalRamBytes := ullTotalPhys
    availableRamBytes := ullAvailPhys
    supportedBackends := [.cpu, .directml, .cuda]
    tier := classifyTier ullAvailPhys }

end WindowsHardwareDetector

namespace FallbackHardwareDetector

def detect : HardwareSpec :=
  { os := .unknown
    totalRamBytes := 4 * 1024 * 1024 * 1024
    availableRamBytes := 2 * 1024 * 1024 * 1024
    supportedBackends := [.cpu]
    tier := .midRange }

end FallbackHardwareDetector

/-- The machine `CreateNativeHardwareDetector` was compiled for, with what its system
    calls report. -/
inductive Machine where
  | windows (ullTotalPhys ullAvailPhys : UInt64)
  | apple (targetOsIphone : Bool) (ram : SysconfRam)
  | android
  | linux (ram : SysconfRam)
  | other

def createNativeHardwareDetector : Machine → HardwareSpec
  | .windows ullTotalPhys ullAvailPhys => WindowsHardwareDetector.detect ullTotalPhys ullAvailPhys
  | .apple targetOsIphone ram => AppleHardwareDetector.detect targetOsIphone ram
  | .android => AndroidHardwareDetector.detect
  | .linux ram => LinuxHardwareDetector.detect ram
  | .other => FallbackHardwareDetector.detect

end LLM.Hardware
