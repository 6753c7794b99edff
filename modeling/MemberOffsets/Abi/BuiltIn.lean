import MemberOffsets.Table

set_option autoImplicit false

namespace MemberOffsets

inductive PointerWidth where
  | bits32
  | bits64
deriving DecidableEq, Repr

namespace PointerWidth

def ofBits? (bits : Nat) : Option PointerWidth :=
  if bits = 32 then some .bits32 else if bits = 64 then some .bits64 else none

def bits : PointerWidth → Nat
  | .bits32 => 32
  | .bits64 => 64

def bytes : PointerWidth → Nat
  | .bits32 => 4
  | .bits64 => 8

def label (w : PointerWidth) : Text := Nat.toDigits 10 w.bits ++ "-bit".toList

end PointerWidth

namespace BuiltIn

/-- Name, width under 32-bit pointers, width under 64-bit pointers. -/
def windowsTypes : List (String × Nat × Nat) := [
    ("LARGE_INTEGER", 8, 8), ("ULARGE_INTEGER", 8, 8), ("CSHORT", 2, 2), ("ATOM", 2, 2),
    ("BOOL", 4, 1), ("BOOLEAN", 1, 1), ("BYTE", 1, 1), ("CCHAR", 1, 1), ("CHAR", 1, 1),
    ("COLORREF", 4, 4), ("DWORD", 4, 4), ("DWORDLONG", 8, 8), ("DWORD_PTR", 4, 8),
    ("DWORD32", 4, 4), ("DWORD64", 8, 8), ("FLOAT", 4, 4), ("HACCEL", 4, 8), ("HALF_PTR", 2, 8),
    ("HANDLE", 4, 8), ("HBITMAP", 4, 8), ("HBRUSH", 4, 8), ("HCOLORSPACE", 4, 8), ("HCONV", 4, 8),
    ("HCONVLIST", 4, 8), ("HCURSOR", 4, 8), ("HDC", 4, 8), ("HDDEDATA", 4, 8), ("HDESK", 4, 8),
    ("HDROP", 4, 8), ("HDWP", 4, 8), ("HENHMETAFILE", 4, 8), ("HFILE", 4, 8), ("HFONT", 4, 8),
    ("HGDIOBJ", 4, 8), ("HGLOBAL", 4, 8), ("HHOOK", 4, 8), ("HICON", 4, 8), ("HINSTANCE", 4, 8),
    ("HKEY", 4, 8), ("HKL", 4, 8), ("HLOCAL", 4, 8), ("HMENU", 4, 8), ("HMETAFILE", 4, 8),
    ("HMODULE", 4, 8), ("HMONITOR", 4, 8), ("HPALETTE", 4, 8), ("HPEN", 4, 8), ("HRESULT", 4, 8),
    ("HRGN", 4, 8), ("HRSRC", 4, 8), ("HSZ", 4, 8), ("HWINSTA", 4, 8), ("HWND", 4, 8),
    ("INT", 4, 4), ("INT_PTR", 4, 8), ("INT8", 1, 1), ("INT16", 2, 2), ("INT32", 4, 4),
    ("INT64", 8, 8), ("LANGID", 2, 2), ("LCID", 4, 4), ("LCTYPE", 4, 4), ("LGRPID", 4, 4),
    ("LONG", 4, 4), ("LONGLONG", 8, 8), ("LONG_PTR", 4, 8), ("LONG32", 4, 4), ("LONG64", 8, 8),
    ("LPARAM", 4, 8), ("LPBOOL", 4, 8), ("LPBYTE", 4, 8), ("LPCOLORREF", 4, 8), ("LPCSTR", 4, 8),
    ("LPCTSTR", 4, 8), ("LPCVOID", 4, 8), ("LPCWSTR", 4, 8), ("LPDWORD", 4, 8), ("LPHANDLE", 4, 8),
    ("LPINT", 4, 8), ("LPLONG", 4, 8), ("LPSTR", 4, 8), ("LPTSTR", 4, 8), ("LPVOID", 4, 8),
    ("LPWORD", 4, 8), ("LPWSTR", 4, 8), ("LRESULT", 4, 8), ("PBOOL", 4, 8), ("PBOOLEAN", 4, 8),
    ("PBYTE", 4, 8), ("PCHAR", 4, 8), ("PCSTR", 4, 8), ("PCTSTR", 4, 8), ("PCWSTR", 4, 8),
    ("PDWORD", 4, 8), ("PDWORDLONG", 4, 8), ("PDWORD_PTR", 4, 8), ("PDWORD32", 4, 8),
    ("PDWORD64", 4, 8), ("PFLOAT", 4, 8), ("PHALF_PTR", 4, 8), ("PHANDLE", 4, 8), ("PHKEY", 4, 8),
    ("PINT", 4, 8), ("PINT_PTR", 4, 8), ("PINT8", 4, 8), ("PINT16", 4, 8), ("PINT32", 4, 8),
    ("PINT64", 4, 8), ("PLCID", 4, 8), ("PLONG", 4, 8), ("PLONGLONG", 4, 8), ("PLONG_PTR", 4, 8),
    ("PLONG32", 4, 8), ("PLONG64", 4, 8), ("POINTER_32", 4, 4), ("POINTER_64", 4, 8),
    ("POINTER_SIGNED", 4, 8), ("POINTER_UNSIGNED", 4, 8), ("PSHORT", 4, 8), ("PSIZE_T", 4, 8),
    ("PSSIZE_T", 4, 8), ("PSTR", 4, 8), ("PTBYTE", 4, 8), ("PTCHAR", 4, 8), ("PTSTR", 4, 8),
    ("PUCHAR", 4, 8), ("PUHALF_PTR", 4, 8), ("PUINT", 4, 8), ("PUINT_PTR", 4, 8), ("PUINT8", 4, 8),
    ("PUINT16", 4, 8), ("PUINT32", 4, 8), ("PUINT64", 4, 8), ("PULONG", 4, 8), ("PULONGLONG", 4, 8),
    ("PULONG_PTR", 4, 8), ("PULONG32", 4, 8), ("PULONG64", 4, 8), ("PUSHORT", 4, 8),
    ("PVOID", 4, 8), ("PWCHAR", 4, 8), ("PWORD", 4, 8), ("PWSTR", 4, 8), ("QWORD", 8, 8),
    ("SC_HANDLE", 4, 8), ("SC_LOCK", 4, 8), ("SERVICE_STATUS_HANDLE", 4, 8), ("SHORT", 2, 2),
    ("SIZE_T", 4, 8), ("SSIZE_T", 4, 8), ("TBYTE", 2, 2), ("TCHAR", 2, 2), ("UCHAR", 1, 1),
    ("UHALF_PTR", 2, 4), ("UINT", 4, 4), ("UINT_PTR", 4, 8), ("UINT8", 1, 1), ("UINT16", 2, 2),
    ("UINT32", 4, 4), ("UINT64", 8, 8), ("ULONG", 4, 4), ("ULONGLONG", 8, 8), ("ULONG_PTR", 4, 8),
    ("ULONG32", 4, 4), ("ULONG64", 8, 8), ("UNICODE_STRING", 4, 12), ("USHORT", 2, 2),
    ("USN", 8, 8), ("WCHAR", 2, 2), ("WORD", 2, 2), ("WPARAM", 4, 8)]

def cTypes : List (String × Nat × Nat) := [
    ("VOID", 0, 0), ("_BOOL", 1, 1), ("SIGNED CHAR", 1, 1), ("UNSIGNED CHAR", 1, 1),
    ("UNSIGNED SHORT", 2, 2), ("SHORT INT", 2, 2), ("UNSIGNED", 4, 4), ("SIGNED", 4, 4),
    ("UNSIGNED INT", 4, 4), ("SIGNED INT", 4, 4), ("UNSIGNED LONG", 4, 4), ("LONG INT", 4, 4),
    ("LONG LONG", 8, 8), ("UNSIGNED LONG LONG", 8, 8), ("__INT8", 1, 1), ("__INT16", 2, 2),
    ("__INT32", 4, 4), ("__INT64", 8, 8), ("DOUBLE", 8, 8), ("WCHAR_T", 2, 2), ("INT8_T", 1, 1),
    ("UINT8_T", 1, 1), ("INT16_T", 2, 2), ("UINT16_T", 2, 2), ("INT32_T", 4, 4), ("UINT32_T", 4, 4),
    ("INT64_T", 8, 8), ("UINT64_T", 8, 8), ("UINTPTR_T", 4, 8), ("INTPTR_T", 4, 8),
    ("PTRDIFF_T", 4, 8)]

def widths (pointer : PointerWidth) : List (Text × Nat) :=
  (windowsTypes ++ cTypes).map fun (name, narrow, wide) =>
    (name.toList, match pointer with | .bits32 => narrow | .bits64 => wide)

theorem keys_widths (pointer : PointerWidth) :
    (widths pointer).map Prod.fst = (windowsTypes ++ cTypes).map fun row => row.1.toList := by
  simp [widths, Function.comp_def]

theorem nodup_widths (pointer : PointerWidth) : ((widths pointer).map Prod.fst).Nodup := by
  -- Read as numerals the names differ already, and numbers are compared faster than texts.
  have apart : (((windowsTypes ++ cTypes).map fun row => row.1.toList).map
      fun name => Nat.ofDigitChars 256 name 0).Nodup := by
    decide +kernel
  rw [keys_widths]
  exact List.Pairwise.of_map _ (fun _ _ differ same => differ (congrArg _ same)) apart

def table (pointer : PointerWidth) : WidthTable := ⟨widths pointer, nodup_widths pointer⟩

end BuiltIn

end MemberOffsets
