import Quire.Label
import Quire.Path
import Quire.Text.Cut
import Quire.Failure.Provider

/-! What kind of file an upload is.

The kind decides how text is taken from the file. A declared media type counts when it names a
supported kind; otherwise the extension of the file name decides. -/
namespace Quire

inductive FileType
  | pdf | tiff | image | other
  deriving DecidableEq, Repr, Inhabited

instance : Label FileType where
  all := [.pdf, .tiff, .image, .other]
  word
    | .pdf => "pdf"
    | .tiff => "tiff"
    | .image => "image"
    | .other => "other"

namespace FileType

/-- The kind of a media type; its parameters and its case do not matter. -/
def ofMime (mime : String) : FileType :=
  let essence := Text.asciiLower (Text.trim ((Text.cut ';' mime).headD ""))
  if essence == "application/pdf" then .pdf
  else if essence == "image/tiff" then .tiff
  else if Text.startsWith "image/" essence then .image
  else .other

/-- The extensions of image files. -/
def imageExtensions : List String :=
  ["3ds", "apng", "art", "arw", "avif", "avifs", "bmp", "btif", "cgm", "cmx", "cod", "cr2", "cr3",
   "crw", "dib", "djv", "djvu", "dng", "fbs", "fh", "fh4", "fh5", "fh7", "fhc", "fpx", "fst", "g3",
   "gif", "hdr", "heic", "heics", "heif", "heifs", "ico", "ief", "jfif", "jng", "jp2", "jpe",
   "jpeg", "jpf", "jpg", "jpg2", "jpm", "jpx", "jxl", "k25", "kdc", "ktx", "mac", "mdi", "mmr",
   "mrw", "nef", "npx", "nrw", "orf", "pbm", "pct", "pef", "pgm", "pic", "pict", "png", "pnm",
   "pnt", "pntg", "pnz", "ppm", "qti", "qtif", "raf", "ras", "raw", "rf", "rgb", "rlc", "rw2",
   "rwl", "sgi", "sid", "sr2", "svg", "svgz", "tga", "uvg", "uvi", "uvvg", "uvvi", "wbmp", "wdp",
   "webp", "x3f", "xbm", "xif", "xpm", "xwd"]

/-- The kind that an extension stands for, in either case. -/
def ofExtension (extension : String) : FileType :=
  let e := Text.asciiLower extension
  if e == "pdf" then .pdf
  else if e == "tif" || e == "tiff" then .tiff
  else if imageExtensions.contains e then .image
  else .other

/-- The kind of a file by its declared media type, or else by its name. -/
def detect (mime : Option String) (fileName : String) : FileType :=
  match mime.map ofMime with
  | none | some .other => ((Path.extension? fileName).map ofExtension).getD .other
  | some declared => declared

/-- The kind that a word names. -/
def ofWord (word : String) : Except ProcessError FileType :=
  match Label.ofWord? word with
  | some t => .ok t
  | none => .error (.unsupportedFormat word)

/-- Text can be read page by page without recognition. -/
def supportsNativePagination : FileType → Bool
  | .pdf => true
  | _ => false

/-- The file may hold more than one page. -/
def isPaginated : FileType → Bool
  | .pdf | .tiff => true
  | _ => false

def isSupported : FileType → Bool
  | .other => false
  | _ => true

/-- The media type to declare for a file that came without one. -/
def defaultMime : FileType → String
  | .pdf => "application/pdf"
  | .tiff => "image/tiff"
  | .image => "image/png"
  | .other => "application/octet-stream"

end FileType
end Quire
