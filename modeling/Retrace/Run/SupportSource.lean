/-!
The support library that every traced program is linked with. It writes an event for each
instrumentation call to the file that the environment names.
-/
namespace Retrace.Support

def libraryName : String := "btviz_trace"

def fileName : String := "__btviz_trace.rs"

def sourceLines : List String := [
  "//! Instrumentation support linked into every traced snippet.",
  "//!",
  "//! Built per run as the `btviz_trace` rlib with nothing but `std`, so it",
  "//! writes its JSON by hand. Each `capture_step!` call appends one line to the",
  "//! file named by `BTVIZ_TRACE_FILE`:",
  "//!",
  "//! ```text",
  "//! \x7b\"action\":\"swap\",\"details\":\"swap 0 and 1\",\"variables\":[\x7b\"type\":\"str\",\"value\":\"i\"\x7d,\x7b\"type\":\"int\",\"value\":1\x7d],",
  "//!  \"function\":\"snippet::Demo::solve\",\"line\":12,\"backtrace\":\"   0: ...\"\x7d",
  "//! ```",
  "",
  "use std::any::type_name;",
  "use std::collections::VecDeque;",
  "use std::fmt::\x7bDebug, Display, Write as _\x7d;",
  "use std::fs::\x7bFile, OpenOptions\x7d;",
  "use std::io::Write as _;",
  "use std::sync::\x7bMutex, OnceLock\x7d;",
  "",
  "pub const TRACE_FILE_ENV: &str = \"BTVIZ_TRACE_FILE\";",
  "pub const CAPTURE_BACKTRACE_ENV: &str = \"BTVIZ_CAPTURE_BACKTRACE\";",
  "/// Exit status of a snippet whose event file cannot be written.",
  "pub const SINK_FAILURE_EXIT: i32 = 97;",
  "",
  "/// Records one step of the running snippet.",
  "///",
  "/// `capture_step!(action, details)` or",
  "/// `capture_step!(action, details, \"key\", value, \"key2\", value2)`.",
  "#[macro_export]",
  "macro_rules! capture_step \x7b",
  "    ($action:expr, $details:expr $(, $key:expr, $value:expr)*) => \x7b\x7b",
  "        #[allow(unused_imports)]",
  "        use $crate::\x7bEncodeDebug as _, EncodeOpaque as _, EncodeTagged as _\x7d;",
  "        fn __btviz_here() \x7b\x7d",
  "        #[allow(unused_mut)]",
  "        let mut __vars: ::std::vec::Vec<::std::string::String> = ::std::vec::Vec::new();",
  "        $(",
  "            \x7b",
  "                let mut __key = ::std::string::String::new();",
  "                (&&&$crate::Probe(&$key)).encode_tagged(&mut __key);",
  "                __vars.push(__key);",
  "                let mut __value = ::std::string::String::new();",
  "                (&&&$crate::Probe(&$value)).encode_tagged(&mut __value);",
  "                __vars.push(__value);",
  "            \x7d",
  "        )*",
  "        $crate::emit(&$action, &$details, __vars, $crate::caller_of(__btviz_here), line!())",
  "    \x7d\x7d;",
  "\x7d",
  "",
  "// ---------------------------------------------------------------------------",
  "// Sink",
  "// ---------------------------------------------------------------------------",
  "",
  "static SINK: OnceLock<Option<Mutex<File>>> = OnceLock::new();",
  "",
  "/// The event file, or `None` when the snippet runs outside a trace.",
  "fn sink() -> Option<&'static Mutex<File>> \x7b",
  "    SINK.get_or_init(|| \x7b",
  "        let path = std::env::var_os(TRACE_FILE_ENV)?;",
  "        match OpenOptions::new().create(true).append(true).open(&path) \x7b",
  "            Ok(file) => Some(Mutex::new(file)),",
  "            Err(err) => sink_failure(&format!(\"cannot open \x7b\x7d: \x7berr\x7d\", path.to_string_lossy())),",
  "        \x7d",
  "    \x7d)",
  "    .as_ref()",
  "\x7d",
  "",
  "/// A trace with missing steps must not look complete.",
  "fn sink_failure(reason: &str) -> ! \x7b",
  "    eprintln!(\"btviz_trace: \x7breason\x7d\");",
  "    std::process::exit(SINK_FAILURE_EXIT)",
  "\x7d",
  "",
  "fn backtraces_enabled() -> bool \x7b",
  "    !matches!(std::env::var(CAPTURE_BACKTRACE_ENV).as_deref(), Ok(\"0\"))",
  "\x7d",
  "",
  "/// Name of the function a `capture_step!` expanded in, from the type name of",
  "/// a marker fn item declared at the expansion site.",
  "pub fn caller_of<F>(_marker: F) -> &'static str \x7b",
  "    let name = type_name::<F>();",
  "    name.strip_suffix(\"::__btviz_here\").unwrap_or(name)",
  "\x7d",
  "",
  "pub fn emit<A, D>(action: &A, details: &D, variables: Vec<String>, function: &str, line: u32)",
  "where",
  "    A: Display + ?Sized,",
  "    D: Display + ?Sized,",
  "\x7b",
  "    let Some(sink) = sink() else \x7b",
  "        return;",
  "    \x7d;",
  "",
  "    let mut out = String::with_capacity(256);",
  "    out.push_str(\"\x7b\\\"action\\\":\");",
  "    json_str(&mut out, &action.to_string());",
  "    out.push_str(\",\\\"details\\\":\");",
  "    json_str(&mut out, &details.to_string());",
  "    out.push_str(\",\\\"variables\\\":[\");",
  "    out.push_str(&variables.join(\",\"));",
  "    out.push_str(\"],\\\"function\\\":\");",
  "    json_str(&mut out, function);",
  "    let _ = write!(out, \",\\\"line\\\":\x7bline\x7d\");",
  "    if backtraces_enabled() \x7b",
  "        out.push_str(\",\\\"backtrace\\\":\");",
  "        json_str(&mut out, &std::backtrace::Backtrace::force_capture().to_string());",
  "    \x7d",
  "    out.push_str(\"\x7d\\n\");",
  "",
  "    let mut file = sink.lock().unwrap_or_else(|poisoned| poisoned.into_inner());",
  "    if let Err(err) = file.write_all(out.as_bytes()).and_then(|()| file.flush()) \x7b",
  "        sink_failure(&format!(\"cannot write event: \x7berr\x7d\"));",
  "    \x7d",
  "\x7d",
  "",
  "// ---------------------------------------------------------------------------",
  "// Value encoding",
  "// ---------------------------------------------------------------------------",
  "",
  "/// Wrapper that selects the most specific encoding for `T` through",
  "/// autoref: [`Tagged`] types first, then any `Debug` type, then the bare",
  "/// type name.",
  "pub struct Probe<'a, T: ?Sized>(pub &'a T);",
  "",
  "pub trait EncodeTagged \x7b",
  "    fn encode_tagged(&self, out: &mut String);",
  "\x7d",
  "",
  "pub trait EncodeDebug \x7b",
  "    fn encode_tagged(&self, out: &mut String);",
  "\x7d",
  "",
  "pub trait EncodeOpaque \x7b",
  "    fn encode_tagged(&self, out: &mut String);",
  "\x7d",
  "",
  "impl<T: Tagged + ?Sized> EncodeTagged for &&Probe<'_, T> \x7b",
  "    fn encode_tagged(&self, out: &mut String) \x7b",
  "        self.0.tagged(out);",
  "    \x7d",
  "\x7d",
  "",
  "impl<T: Debug + ?Sized> EncodeDebug for &Probe<'_, T> \x7b",
  "    fn encode_tagged(&self, out: &mut String) \x7b",
  "        object(out, &format!(\"\x7b:?\x7d\", self.0));",
  "    \x7d",
  "\x7d",
  "",
  "impl<T: ?Sized> EncodeOpaque for Probe<'_, T> \x7b",
  "    fn encode_tagged(&self, out: &mut String) \x7b",
  "        object(out, type_name::<T>());",
  "    \x7d",
  "\x7d",
  "",
  "/// Types with a structured tagged encoding.",
  "pub trait Tagged \x7b",
  "    fn tagged(&self, out: &mut String);",
  "\x7d",
  "",
  "fn json_str(out: &mut String, s: &str) \x7b",
  "    out.push('\"');",
  "    for c in s.chars() \x7b",
  "        match c \x7b",
  "            '\"' => out.push_str(\"\\\\\\\"\"),",
  "            '\\\\' => out.push_str(\"\\\\\\\\\"),",
  "            '\\n' => out.push_str(\"\\\\n\"),",
  "            '\\r' => out.push_str(\"\\\\r\"),",
  "            '\\t' => out.push_str(\"\\\\t\"),",
  "            c if (c as u32) < 0x20 => \x7b",
  "                let _ = write!(out, \"\\\\u\x7b:04x\x7d\", c as u32);",
  "            \x7d",
  "            c => out.push(c),",
  "        \x7d",
  "    \x7d",
  "    out.push('\"');",
  "\x7d",
  "",
  "fn object(out: &mut String, desc: &str) \x7b",
  "    out.push_str(\"\x7b\\\"type\\\":\\\"object\\\",\\\"value\\\":\");",
  "    json_str(out, desc);",
  "    out.push('\x7d');",
  "\x7d",
  "",
  "fn int(out: &mut String, v: i64) \x7b",
  "    let _ = write!(out, \"\x7b\x7b\\\"type\\\":\\\"int\\\",\\\"value\\\":\x7bv\x7d\x7d\x7d\");",
  "\x7d",
  "",
  "macro_rules! tagged_small_int \x7b",
  "    ($($t:ty),*) => \x7b",
  "        $(impl Tagged for $t \x7b",
  "            fn tagged(&self, out: &mut String) \x7b",
  "                int(out, *self as i64);",
  "            \x7d",
  "        \x7d)*",
  "    \x7d;",
  "\x7d",
  "",
  "macro_rules! tagged_wide_int \x7b",
  "    ($($t:ty),*) => \x7b",
  "        $(impl Tagged for $t \x7b",
  "            fn tagged(&self, out: &mut String) \x7b",
  "                match i64::try_from(*self) \x7b",
  "                    Ok(v) => int(out, v),",
  "                    Err(_) => object(out, &self.to_string()),",
  "                \x7d",
  "            \x7d",
  "        \x7d)*",
  "    \x7d;",
  "\x7d",
  "",
  "tagged_small_int!(i8, i16, i32, i64, u8, u16, u32);",
  "tagged_wide_int!(isize, usize, u64, i128, u128);",
  "",
  "macro_rules! tagged_float \x7b",
  "    ($($t:ty),*) => \x7b",
  "        $(impl Tagged for $t \x7b",
  "            fn tagged(&self, out: &mut String) \x7b",
  "                if self.is_finite() \x7b",
  "                    let _ = write!(out, \"\x7b\x7b\\\"type\\\":\\\"float\\\",\\\"value\\\":\x7b:?\x7d\x7d\x7d\", self);",
  "                \x7d else \x7b",
  "                    object(out, &self.to_string());",
  "                \x7d",
  "            \x7d",
  "        \x7d)*",
  "    \x7d;",
  "\x7d",
  "",
  "tagged_float!(f32, f64);",
  "",
  "impl Tagged for bool \x7b",
  "    fn tagged(&self, out: &mut String) \x7b",
  "        let _ = write!(out, \"\x7b\x7b\\\"type\\\":\\\"bool\\\",\\\"value\\\":\x7bself\x7d\x7d\x7d\");",
  "    \x7d",
  "\x7d",
  "",
  "impl Tagged for char \x7b",
  "    fn tagged(&self, out: &mut String) \x7b",
  "        out.push_str(\"\x7b\\\"type\\\":\\\"char\\\",\\\"value\\\":\");",
  "        json_str(out, &self.to_string());",
  "        out.push('\x7d');",
  "    \x7d",
  "\x7d",
  "",
  "impl Tagged for str \x7b",
  "    fn tagged(&self, out: &mut String) \x7b",
  "        out.push_str(\"\x7b\\\"type\\\":\\\"str\\\",\\\"value\\\":\");",
  "        json_str(out, self);",
  "        out.push('\x7d');",
  "    \x7d",
  "\x7d",
  "",
  "impl Tagged for String \x7b",
  "    fn tagged(&self, out: &mut String) \x7b",
  "        self.as_str().tagged(out);",
  "    \x7d",
  "\x7d",
  "",
  "impl<T: Tagged> Tagged for Option<T> \x7b",
  "    fn tagged(&self, out: &mut String) \x7b",
  "        match self \x7b",
  "            Some(v) => v.tagged(out),",
  "            None => out.push_str(\"\x7b\\\"type\\\":\\\"null\\\"\x7d\"),",
  "        \x7d",
  "    \x7d",
  "\x7d",
  "",
  "fn list<'a, T: Tagged + 'a>(out: &mut String, items: impl Iterator<Item = &'a T>) \x7b",
  "    out.push_str(\"\x7b\\\"type\\\":\\\"list\\\",\\\"value\\\":[\");",
  "    for (i, item) in items.enumerate() \x7b",
  "        if i > 0 \x7b",
  "            out.push(',');",
  "        \x7d",
  "        item.tagged(out);",
  "    \x7d",
  "    out.push_str(\"]\x7d\");",
  "\x7d",
  "",
  "impl<T: Tagged> Tagged for [T] \x7b",
  "    fn tagged(&self, out: &mut String) \x7b",
  "        list(out, self.iter());",
  "    \x7d",
  "\x7d",
  "",
  "impl<T: Tagged, const N: usize> Tagged for [T; N] \x7b",
  "    fn tagged(&self, out: &mut String) \x7b",
  "        list(out, self.iter());",
  "    \x7d",
  "\x7d",
  "",
  "impl<T: Tagged> Tagged for Vec<T> \x7b",
  "    fn tagged(&self, out: &mut String) \x7b",
  "        list(out, self.iter());",
  "    \x7d",
  "\x7d",
  "",
  "impl<T: Tagged> Tagged for VecDeque<T> \x7b",
  "    fn tagged(&self, out: &mut String) \x7b",
  "        list(out, self.iter());",
  "    \x7d",
  "\x7d",
  "",
  "impl<T: Tagged + ?Sized> Tagged for &T \x7b",
  "    fn tagged(&self, out: &mut String) \x7b",
  "        (**self).tagged(out);",
  "    \x7d",
  "\x7d",
  "",
  "impl<T: Tagged + ?Sized> Tagged for &mut T \x7b",
  "    fn tagged(&self, out: &mut String) \x7b",
  "        (**self).tagged(out);",
  "    \x7d",
  "\x7d",
  "",
  "impl<T: Tagged + ?Sized> Tagged for Box<T> \x7b",
  "    fn tagged(&self, out: &mut String) \x7b",
  "        (**self).tagged(out);",
  "    \x7d",
  "\x7d"
]

def source : String := String.join (sourceLines.map fun line => line ++ "\n")

end Retrace.Support
