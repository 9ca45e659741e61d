import GemmaWorker.Python.Text

/-! `urllib.parse.urlsplit`, and what it makes of a URL whose host part was not checked. -/

namespace GemmaWorker.Python

structure SplitResult where
  scheme : PyStr
  netloc : PyStr
  path : PyStr
  query : PyStr
  fragment : PyStr

/-- Tab, line feed and carriage return, which `urlsplit` drops wherever they stand. -/
def isUnsafeUrlByte (c : CodePoint) : Bool :=
  c = ch '\t' || c = ch '\n' || c = ch '\r'

def removeUnsafe (s : PyStr) : PyStr :=
  s.filter (fun c => !isUnsafeUrlByte c)

def isUrlDelim (c : CodePoint) : Bool :=
  c = ch '/' || c = ch '?' || c = ch '#'

def isSchemeChar (c : CodePoint) : Bool :=
  (97 ≤ c.val && c.val ≤ 122) || (65 ≤ c.val && c.val ≤ 90) || (48 ≤ c.val && c.val ≤ 57) ||
    c = ch '+' || c = ch '-' || c = ch '.'

/-- The scheme in front of the first colon, when every character there may stand in a scheme. -/
def splitScheme (url : PyStr) : PyStr × PyStr :=
  let head := (cut (ch ':') url).1
  if ch ':' ∈ url ∧ head ≠ [] ∧ head.all isSchemeChar then (lower head, (cut (ch ':') url).2)
  else ([], url)

def splitNetloc (url : PyStr) : PyStr × PyStr :=
  if url.take 2 = lit "//" then
    ((url.drop 2).takeWhile (fun c => !isUrlDelim c), (url.drop 2).dropWhile (fun c => !isUrlDelim c))
  else ([], url)

/-- `netlocOk` stands for the checks on brackets, IP literals and NFKC forms that end in a
`ValueError`. -/
def urlsplit (netlocOk : PyStr → Bool) (url : PyStr) : Except PyError SplitResult :=
  let url := removeUnsafe (url.dropWhile (fun c => c.val ≤ 0x20))
  let (scheme, url) := splitScheme url
  let (netloc, url) := splitNetloc url
  if netlocOk netloc then
    let (url, fragment) := cut (ch '#') url
    let (path, query) := cut (ch '?') url
    .ok ⟨scheme, netloc, path, query, fragment⟩
  else .error .valueError

lemma removeUnsafe_append (s t : PyStr) : removeUnsafe (s ++ t) = removeUnsafe s ++ removeUnsafe t :=
  List.filter_append ..

lemma removeUnsafe_self {s : PyStr} (h : ∀ c ∈ s, isUnsafeUrlByte c = false) : removeUnsafe s = s :=
  List.filter_eq_self.mpr (by simpa using h)

lemma removeUnsafe_sublist (s : PyStr) : (removeUnsafe s).Sublist s :=
  List.filter_sublist

lemma not_unsafe_of_removeUnsafe {s : PyStr} (h : removeUnsafe s = s) {c : CodePoint} (hc : c ∈ s) :
    isUnsafeUrlByte c = false := by
  simpa using List.filter_eq_self.mp h c hc

end GemmaWorker.Python
