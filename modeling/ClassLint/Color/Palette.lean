import ClassLint.Color.Hex

/-!
# The default palette

Twenty-two named colors, each in eleven shades.
-/

namespace ClassLint

namespace Palette

/-- The shades of every color, from light to dark. -/
def shades : List Text :=
  Text.ofStrings ["50", "100", "200", "300", "400", "500", "600", "700", "800", "900", "950"]

/-- The colors by name, with red, green and blue of each shade as three bytes of one number. -/
def colors : List (Text × List Nat) :=
  [("red".toList,
    [0xfef2f2, 0xffe2e2, 0xffc9c9, 0xffa2a2, 0xff6467, 0xfb2c36,
     0xe7000b, 0xc10007, 0x9f0712, 0x82181a, 0x460809]),
   ("orange".toList,
    [0xfff7ed, 0xffedd4, 0xffd6a7, 0xffb86a, 0xff8904, 0xff6900,
     0xf54900, 0xca3500, 0x9f2d00, 0x7e2a0c, 0x441306]),
   ("amber".toList,
    [0xfffbeb, 0xfef3c6, 0xfee685, 0xffd230, 0xffb900, 0xfe9a00,
     0xe17100, 0xbb4d00, 0x973c00, 0x7b3306, 0x461901]),
   ("yellow".toList,
    [0xfefce8, 0xfef9c2, 0xfff085, 0xffdf20, 0xfdc700, 0xf0b100,
     0xd08700, 0xa65f00, 0x894b00, 0x733e0a, 0x432004]),
   ("lime".toList,
    [0xf7fee7, 0xecfcca, 0xd8f999, 0xbbf451, 0x9ae600, 0x7ccf00,
     0x5ea500, 0x497d00, 0x3d6300, 0x35530e, 0x192e03]),
   ("green".toList,
    [0xf0fdf4, 0xdcfce7, 0xb9f8cf, 0x7bf1a8, 0x05df72, 0x00c950,
     0x00a63e, 0x008236, 0x016630, 0x0d542b, 0x032e15]),
   ("emerald".toList,
    [0xecfdf5, 0xd0fae5, 0xa4f4cf, 0x5ee9b5, 0x00d492, 0x00bc7d,
     0x009966, 0x007a55, 0x006045, 0x004f3b, 0x002c22]),
   ("teal".toList,
    [0xf0fdfa, 0xcbfbf1, 0x96f7e4, 0x46ecd5, 0x00d5be, 0x00bba7,
     0x009689, 0x00786f, 0x005f5a, 0x0b4f4a, 0x022f2e]),
   ("cyan".toList,
    [0xecfeff, 0xcefafe, 0xa2f4fd, 0x53eafd, 0x00d3f2, 0x00b8db,
     0x0092b8, 0x007595, 0x005f78, 0x104e64, 0x053345]),
   ("sky".toList,
    [0xf0f9ff, 0xdff2fe, 0xb8e6fe, 0x74d4ff, 0x00bcff, 0x00a6f4,
     0x0084d1, 0x0069a8, 0x00598a, 0x024a70, 0x052f4a]),
   ("blue".toList,
    [0xeff6ff, 0xdbeafe, 0xbedbff, 0x8ec5ff, 0x51a2ff, 0x2b7fff,
     0x155dfc, 0x1447e6, 0x193cb8, 0x1c398e, 0x162456]),
   ("indigo".toList,
    [0xeef2ff, 0xe0e7ff, 0xc6d2ff, 0xa3b3ff, 0x7c86ff, 0x615fff,
     0x4f39f6, 0x432dd7, 0x372aac, 0x312c85, 0x1e1a4d]),
   ("violet".toList,
    [0xf5f3ff, 0xede9fe, 0xddd6ff, 0xc4b4ff, 0xa684ff, 0x8e51ff,
     0x7f22fe, 0x7008e7, 0x5d0ec0, 0x4d179a, 0x2f0d68]),
   ("purple".toList,
    [0xfaf5ff, 0xf3e8ff, 0xe9d4ff, 0xdab2ff, 0xc27aff, 0xad46ff,
     0x9810fa, 0x8200db, 0x6e11b0, 0x59168b, 0x3c0366]),
   ("fuchsia".toList,
    [0xfdf4ff, 0xfae8ff, 0xf6cfff, 0xf4a8ff, 0xed6aff, 0xe12afb,
     0xc800de, 0xa800b7, 0x8a0194, 0x721378, 0x4b004f]),
   ("pink".toList,
    [0xfdf2f8, 0xfce7f3, 0xfccee8, 0xfda5d5, 0xfb64b6, 0xf6339a,
     0xe60076, 0xc6005c, 0xa3004c, 0x861043, 0x510424]),
   ("rose".toList,
    [0xfff1f2, 0xffe4e6, 0xffccd3, 0xffa1ad, 0xff637e, 0xff2056,
     0xec003f, 0xc70036, 0xa50036, 0x8b0836, 0x4d0218]),
   ("slate".toList,
    [0xf8fafc, 0xf1f5f9, 0xe2e8f0, 0xcad5e2, 0x90a1b9, 0x62748e,
     0x45556c, 0x314158, 0x1d293d, 0x0f172b, 0x020618]),
   ("gray".toList,
    [0xf9fafb, 0xf3f4f6, 0xe5e7eb, 0xd1d5dc, 0x99a1af, 0x6a7282,
     0x4a5565, 0x364153, 0x1e2939, 0x101828, 0x030712]),
   ("zinc".toList,
    [0xfafafa, 0xf4f4f5, 0xe4e4e7, 0xd4d4d8, 0x9f9fa9, 0x71717b,
     0x52525c, 0x3f3f46, 0x27272a, 0x18181b, 0x09090b]),
   ("neutral".toList,
    [0xfafafa, 0xf5f5f5, 0xe5e5e5, 0xd4d4d4, 0xa1a1a1, 0x737373,
     0x525252, 0x404040, 0x262626, 0x171717, 0x0a0a0a]),
   ("stone".toList,
    [0xfafaf9, 0xf5f5f4, 0xe7e5e4, 0xd6d3d1, 0xa6a09b, 0x79716b,
     0x57534d, 0x44403b, 0x292524, 0x1c1917, 0x0c0a09])]

/-- The names of the colors in the order of the palette. -/
def names : List Text :=
  colors.map Prod.fst

/-- The opaque color of three bytes in one number. -/
def ofPacked (packed : Nat) : Rgba :=
  Rgba.ofBytes ⟨(packed / 65536).toUInt8, (packed / 256).toUInt8, packed.toUInt8, 255⟩

/-- The color of a name and a shade. -/
def color? (name shade : Text) : Option Rgba :=
  (colors.lookup name).bind fun packed =>
    ((shades.zip packed).lookup shade).map ofPacked

/-- The color of a token such as `red-500`, cut at its last hyphen. -/
def ofToken? (token : Text) : Option Rgba :=
  (token.cutAtLast? '-').bind fun (name, shade) => color? name shade

end Palette

end ClassLint
