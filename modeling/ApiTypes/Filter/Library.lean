import ApiTypes.Filter.Native
import ApiTypes.Filter.Reader

/-!
# The library of the filter language

The filters that every filter may use: the native ones and those that are
defined by terms.
-/

namespace ApiTypes.Filter.Library

def kinds : String := "
def select(f): if f then . else empty end;
def isboolean: . == true or . == false;
def isnumber: . > true and . < \"\";
def isstring: . >= \"\" and . < [];
def isarray: . >= [] and . < \x7b\x7d;
def isobject: . >= \x7b\x7d;
def values: select(. != null);
def nulls: select(. == null);
def booleans: select(isboolean);
def numbers: select(isnumber);
def strings: select(isstring);
def arrays: select(isarray);
def objects: select(isobject);
def iterables: select(. >= []);
def scalars: select(. < []);
def finites: select(isfinite);
def normals: select(isnormal);
def toarray: if isarray then . else [.] end;
def abs: if . < 0 then -. else . end;
def have_literal_numbers: true;
def have_decnum: false;
"

def repetitions : String := "
def recurse(f): def rec: ., (f | rec); rec;
def recurse: recurse(.[]?);
def recurse(f; cond): recurse(f | select(cond));
def recurse_down: recurse;
def repeat(f): def rec: ., (f | rec); rec;
def while(cond; f): def rec: if cond then ., (f | rec) else empty end; rec;
def until(cond; f): def rec: if cond then . else f | rec end; rec;
def range($to): range(0; $to; 1);
def range($from; $to): range($from; $to; 1);
def walk(f): def rec: (.[]? |= rec) | f; rec;
def error(f): f | error;
def debug(f): (f | debug | empty), .;
def input: first(inputs);
def halt: halt(0);
def halt_error: halt(5);
def halt_error($code): halt($code);
"

/-- Filters on the parts of arrays and objects. -/
def collections : String := "
def map(f): [.[] | f];
def map_values(f): .[] |= f;
def add(f): reduce f as $x (null; . + $x);
def add: add(.[]);
def keys: keys_unsorted | sort_by(.);
def in(xs): . as $x | xs | has($x);
def inside(xs): . as $x | xs | contains($x);
def isvalid(f): try (f | true) catch false;
def isempty(f): first((f | false), true);
def any(f; cond): isempty(first(f | cond | select(.))) | not;
def any(cond): any(.[]; cond);
def any: any(.[]; .);
def all(f; cond): isempty(first(f | cond | select(. | not)));
def all(cond): all(.[]; cond);
def all: all(.[]; .);
def first: .[0];
def last: .[-1];
def nth($i): .[$i];
def nth($i; f): first(skip($i; f));
def del(f): f |= empty;
def to_entries: [keys_unsorted[] as $k | \x7bkey: $k, value: .[$k]\x7d];
def from_entries: map(\x7b(.key): .value\x7d) | add + \x7b\x7d;
def with_entries(f): to_entries | map(f) | from_entries;
def getpath($path): reduce $path[] as $k (.; if . == null then null else .[$k] end);
def paths:
  def rec: . as $x | (keys_unsorted? | .[]) as $k | [$k], ([$k] + ($x[$k] | rec));
  rec;
def paths(f): paths as $p | select(getpath($p) | f) | $p;
def leaf_paths: paths(scalars);
def flatten: [recurse(arrays | .[]) | select(isarray | not)];
def flatten($d):
  if $d > 0 then map(if isarray then flatten($d - 1) else [.] end) | add + [] else . end;
def sort: sort_by(.);
def min_by(f): reduce min_by_or_empty(f) as $x (null; $x);
def max_by(f): reduce max_by_or_empty(f) as $x (null; $x);
def min: min_by(.);
def max: max_by(.);
def unique_by(f): [group_by(f)[] | .[0]];
def unique: unique_by(.);
def index($i): indices($i) | .[0];
def rindex($i): indices($i) | .[-1];
def join(x): [.[] | ., x][:-1] | add;
def transpose: [range([.[] | length] | max) as $i | [.[][$i]]];
def combinations:
  if length == 0 then []
  else .[0][] as $x | (.[1:] | combinations) as $rest | [$x] + $rest
  end;
def combinations(n): . as $x | [range(n)] | map($x) | combinations;
def ascii: [.] | implode;
def fromdate: fromdateiso8601;
def todate: todateiso8601;
def date: todate;
"

def patterns : String := "
def capture_of_match: map(select(.name) | \x7b(.name): .string\x7d) | add + \x7b\x7d;
def test(re; flags): matches(re; flags) | length > 0;
def test(re): test(re; \"\");
def scan(re; flags): matches(re; \"g\" + flags)[] | .[0].string;
def scan(re): scan(re; \"\");
def match(re; flags): matches(re; flags)[] | .[0] + \x7bcaptures: .[1:]\x7d;
def match(re): match(re; \"\");
def capture(re; flags): matches(re; flags)[] | capture_of_match;
def capture(re): capture(re; \"\");
def split(re; flags): split_(re; \"g\" + flags);
def splits(re; flags): split(re; flags)[];
def splits(re): splits(re; \"\");
def sub(re; f; flags): reduce split_matches(re; flags)[] as $x
  (\"\"; . + if $x | isstring then $x else $x | capture_of_match | f end);
def sub(re; f): sub(re; f; \"\");
def gsub(re; f; flags): sub(re; f; \"g\" + flags);
def gsub(re; f): gsub(re; f; \"\");
"

/-- The library with the input as the term it is made for. -/
def program : Term :=
  (Term.ofText? (kinds ++ repetitions ++ collections ++ patterns ++ ".")).getD .identity

end ApiTypes.Filter.Library
