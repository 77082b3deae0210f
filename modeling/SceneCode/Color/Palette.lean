import SceneCode.Color.Basic

namespace SceneCode.Palette

/-- Names with their six hexadecimal digits. -/
def entries : List (String × String) := [
  ("black", "000000"), ("white", "FFFFFF"), ("gray-50", "F9FAFB"), ("gray-100", "F3F4F6"),
  ("gray-200", "E5E7EB"), ("gray-300", "D1D5DB"), ("gray-400", "9CA3AF"), ("gray-500", "6B7280"),
  ("gray-600", "4B5563"), ("gray-700", "374151"), ("gray-800", "1F2937"), ("gray-900", "111827"),
  ("red-50", "FEF2F2"), ("red-100", "FEE2E2"), ("red-200", "FECACA"), ("red-300", "FCA5A5"),
  ("red-400", "F87171"), ("red-500", "EF4444"), ("red-600", "DC2626"), ("red-700", "B91C1C"),
  ("red-800", "991B1B"), ("red-900", "7F1D1D"), ("orange-50", "FFF7ED"), ("orange-100", "FFEDD5"),
  ("orange-200", "FED7AA"), ("orange-300", "FDBA74"), ("orange-400", "FB923C"),
  ("orange-500", "F97316"), ("orange-600", "EA580C"), ("orange-700", "C2410C"),
  ("orange-800", "9A3412"), ("orange-900", "7C2D12"), ("yellow-50", "FEFCE8"),
  ("yellow-100", "FEF9C3"), ("yellow-200", "FEF08A"), ("yellow-300", "FDE047"),
  ("yellow-400", "FACC15"), ("yellow-500", "EAB308"), ("yellow-600", "CA8A04"),
  ("yellow-700", "A16207"), ("yellow-800", "854D0E"), ("yellow-900", "713F12"),
  ("green-50", "F0FDF4"), ("green-100", "DCFCE7"), ("green-200", "BBF7D0"),
  ("green-300", "86EFAC"), ("green-400", "4ADE80"), ("green-500", "22C55E"),
  ("green-600", "16A34A"), ("green-700", "15803D"), ("green-800", "166534"),
  ("green-900", "14532D"), ("blue-50", "EFF6FF"), ("blue-100", "DBEAFE"), ("blue-200", "BFDBFE"),
  ("blue-300", "93C5FD"), ("blue-400", "60A5FA"), ("blue-500", "3B82F6"), ("blue-600", "2563EB"),
  ("blue-700", "1D4ED8"), ("blue-800", "1E40AF"), ("blue-900", "1E3A8A"), ("indigo-50", "EEF2FF"),
  ("indigo-100", "E0E7FF"), ("indigo-200", "C7D2FE"), ("indigo-300", "A5B4FC"),
  ("indigo-400", "818CF8"), ("indigo-500", "6366F1"), ("indigo-600", "4F46E5"),
  ("indigo-700", "4338CA"), ("indigo-800", "3730A3"), ("indigo-900", "312E81"),
  ("purple-50", "FAF5FF"), ("purple-100", "F3E8FF"), ("purple-200", "E9D5FF"),
  ("purple-300", "D8B4FE"), ("purple-400", "C084FC"), ("purple-500", "A855F7"),
  ("purple-600", "9333EA"), ("purple-700", "7E22CE"), ("purple-800", "6B21A8"),
  ("purple-900", "581C87"), ("pink-50", "FDF2F8"), ("pink-100", "FCE7F3"), ("pink-200", "FBCFE8"),
  ("pink-300", "F9A8D4"), ("pink-400", "F472B6"), ("pink-500", "EC4899"), ("pink-600", "DB2777"),
  ("pink-700", "BE185D"), ("pink-800", "9D174D"), ("pink-900", "831843")]

def colors : List (String × Rgb) :=
  entries.filterMap fun (name, hex) => (Rgb.ofHex? hex).map (name, ·)

/-- The square of the distance between two colours. -/
def distance (a b : Rgb) : Float :=
  let square (x : Float) := x * x
  square (a.r - b.r) + square (a.g - b.g) + square (a.b - b.b)

/-- The first of the nearest colours. -/
def nearest (c : Rgb) : String :=
  (colors.foldl (fun (best, least) (name, entry) =>
    let d := distance c entry
    if d < least then (name, d) else (best, least)) ("black", 1.0 / 0.0)).1

/-- As an equation of functions, since its value at a colour would be compared by going through all the colours. -/
theorem nearest_eq : nearest = fun c =>
    (colors.foldl (fun (best, least) (name, entry) =>
      let d := distance c entry
      if d < least then (name, d) else (best, least)) ("black", 1.0 / 0.0)).1 := rfl

/-- The colour that is written with the same six digits. -/
def written? (c : Rgb) : Option String :=
  (entries.find? (·.2 == c.hex6)).map (·.1)

end SceneCode.Palette
