import PhpHandbook.Registry.Basic

/-!
# The classes of the language itself

The interfaces and classes that every program can use, written as a source text with signatures
only.  Their templates are those that documentation comments give arguments for.

They are the stubs that every registry of a project starts with: `builtins` is the registry with
this source alone.
-/

namespace PhpHandbook.Registry

/-- The source text, line by line. -/
def builtinLines : List String := [
    "<?php",
    "",
    "/**",
    " * @template-covariant TKey",
    " * @template-covariant TValue",
    " */",
    "interface Traversable \x7b\x7d",
    "",
    "/**",
    " * @template TKey",
    " * @template TValue",
    " * @extends Traversable<TKey, TValue>",
    " */",
    "interface Iterator extends Traversable",
    "\x7b",
    "    /** @return TValue */",
    "    public function current(): mixed;",
    "    public function next(): void;",
    "    /** @return TKey */",
    "    public function key(): mixed;",
    "    public function valid(): bool;",
    "    public function rewind(): void;",
    "\x7d",
    "",
    "/**",
    " * @template TKey",
    " * @template TValue",
    " * @extends Traversable<TKey, TValue>",
    " */",
    "interface IteratorAggregate extends Traversable",
    "\x7b",
    "    /** @return Traversable<TKey, TValue> */",
    "    public function getIterator(): Iterator;",
    "\x7d",
    "",
    "/**",
    " * @template TKey",
    " * @template TValue",
    " * @extends Iterator<TKey, TValue>",
    " */",
    "interface OuterIterator extends Iterator",
    "\x7b",
    "    public function getInnerIterator(): ?Iterator;",
    "\x7d",
    "",
    "/**",
    " * @template TKey",
    " * @template TValue",
    " * @extends Iterator<TKey, TValue>",
    " */",
    "interface SeekableIterator extends Iterator",
    "\x7b",
    "    public function seek(int $offset): void;",
    "\x7d",
    "",
    "/**",
    " * @template TKey",
    " * @template TValue",
    " */",
    "interface ArrayAccess",
    "\x7b",
    "    /** @param TKey $offset */",
    "    public function offsetExists(mixed $offset): bool;",
    "    /**",
    "     * @param TKey $offset",
    "     * @return TValue",
    "     */",
    "    public function offsetGet(mixed $offset): mixed;",
    "    /**",
    "     * @param TKey|null $offset",
    "     * @param TValue $value",
    "     */",
    "    public function offsetSet(mixed $offset, mixed $value): void;",
    "    /** @param TKey $offset */",
    "    public function offsetUnset(mixed $offset): void;",
    "\x7d",
    "",
    "interface Countable",
    "\x7b",
    "    public function count(): int;",
    "\x7d",
    "",
    "interface Stringable",
    "\x7b",
    "    public function __toString(): string;",
    "\x7d",
    "",
    "interface JsonSerializable",
    "\x7b",
    "    public function jsonSerialize(): mixed;",
    "\x7d",
    "",
    "interface Serializable",
    "\x7b",
    "    public function serialize(): ?string;",
    "    public function unserialize(string $data): void;",
    "\x7d",
    "",
    "interface UnitEnum",
    "\x7b",
    "    /** @return list<static> */",
    "    public static function cases(): array;",
    "\x7d",
    "",
    "interface BackedEnum extends UnitEnum",
    "\x7b",
    "    public static function from(int|string $value): static;",
    "    public static function tryFrom(int|string $value): ?static;",
    "\x7d",
    "",
    "interface Throwable extends Stringable",
    "\x7b",
    "    public function getMessage(): string;",
    "    public function getCode();",
    "    public function getFile(): string;",
    "    public function getLine(): int;",
    "    public function getTrace(): array;",
    "    public function getTraceAsString(): string;",
    "    public function getPrevious(): ?Throwable;",
    "\x7d",
    "",
    "class Exception implements Throwable",
    "\x7b",
    "    protected $message = \"\";",
    "    protected $code = 0;",
    "    protected string $file = \"\";",
    "    protected int $line = 0;",
    "",
    "    public function __construct(string $message = \"\", int $code = 0, " ++
      "?Throwable $previous = null) \x7b\x7d",
    "    final public function getMessage(): string \x7b\x7d",
    "    final public function getCode() \x7b\x7d",
    "    final public function getFile(): string \x7b\x7d",
    "    final public function getLine(): int \x7b\x7d",
    "    final public function getTrace(): array \x7b\x7d",
    "    final public function getTraceAsString(): string \x7b\x7d",
    "    final public function getPrevious(): ?Throwable \x7b\x7d",
    "    public function __toString(): string \x7b\x7d",
    "\x7d",
    "",
    "class Error implements Throwable",
    "\x7b",
    "    protected $message = \"\";",
    "    protected $code = 0;",
    "    protected string $file = \"\";",
    "    protected int $line = 0;",
    "",
    "    public function __construct(string $message = \"\", int $code = 0, " ++
      "?Throwable $previous = null) \x7b\x7d",
    "    final public function getMessage(): string \x7b\x7d",
    "    final public function getCode() \x7b\x7d",
    "    final public function getFile(): string \x7b\x7d",
    "    final public function getLine(): int \x7b\x7d",
    "    final public function getTrace(): array \x7b\x7d",
    "    final public function getTraceAsString(): string \x7b\x7d",
    "    final public function getPrevious(): ?Throwable \x7b\x7d",
    "    public function __toString(): string \x7b\x7d",
    "\x7d",
    "",
    "class ErrorException extends Exception",
    "\x7b",
    "    public function getSeverity(): int \x7b\x7d",
    "\x7d",
    "",
    "class TypeError extends Error \x7b\x7d",
    "class ValueError extends Error \x7b\x7d",
    "class ArithmeticError extends Error \x7b\x7d",
    "class DivisionByZeroError extends ArithmeticError \x7b\x7d",
    "class ArgumentCountError extends TypeError \x7b\x7d",
    "class LogicException extends Exception \x7b\x7d",
    "class BadFunctionCallException extends LogicException \x7b\x7d",
    "class BadMethodCallException extends BadFunctionCallException \x7b\x7d",
    "class DomainException extends LogicException \x7b\x7d",
    "class InvalidArgumentException extends LogicException \x7b\x7d",
    "class LengthException extends LogicException \x7b\x7d",
    "class OutOfRangeException extends LogicException \x7b\x7d",
    "class RuntimeException extends Exception \x7b\x7d",
    "class OutOfBoundsException extends RuntimeException \x7b\x7d",
    "class OverflowException extends RuntimeException \x7b\x7d",
    "class RangeException extends RuntimeException \x7b\x7d",
    "class UnderflowException extends RuntimeException \x7b\x7d",
    "class UnexpectedValueException extends RuntimeException \x7b\x7d",
    "class JsonException extends Exception \x7b\x7d",
    "",
    "final class Closure",
    "\x7b",
    "    public static function bind(Closure $closure, ?object $newThis, " ++
      "object|string|null $newScope = \"static\"): ?Closure \x7b\x7d",
    "    public function bindTo(?object $newThis, " ++
      "object|string|null $newScope = \"static\"): ?Closure \x7b\x7d",
    "    public function call(object $newThis, mixed ...$args): mixed \x7b\x7d",
    "    public static function fromCallable(callable $callback): Closure \x7b\x7d",
    "\x7d",
    "",
    "/**",
    " * @template-covariant TKey",
    " * @template-covariant TValue",
    " * @template TSend",
    " * @template-covariant TReturn",
    " * @implements Iterator<TKey, TValue>",
    " */",
    "final class Generator implements Iterator",
    "\x7b",
    "    public function current(): mixed \x7b\x7d",
    "    public function getReturn(): mixed \x7b\x7d",
    "    public function key(): mixed \x7b\x7d",
    "    public function next(): void \x7b\x7d",
    "    public function rewind(): void \x7b\x7d",
    "    public function send(mixed $value): mixed \x7b\x7d",
    "    public function throw(Throwable $exception): mixed \x7b\x7d",
    "    public function valid(): bool \x7b\x7d",
    "\x7d",
    "",
    "interface DateTimeInterface",
    "\x7b",
    "    const ATOM = \"Y-m-d\\TH:i:sP\";",
    "    const ISO8601 = \"Y-m-d\\TH:i:sO\";",
    "    const RFC3339 = \"Y-m-d\\TH:i:sP\";",
    "",
    "    public function format(string $format): string;",
    "    public function getTimestamp(): int;",
    "    public function getTimezone(): DateTimeZone|false;",
    "    public function diff(DateTimeInterface $targetObject, " ++
      "bool $absolute = false): DateInterval;",
    "\x7d",
    "",
    "class DateTime implements DateTimeInterface",
    "\x7b",
    "    public function __construct(string $datetime = \"now\", " ++
      "?DateTimeZone $timezone = null) \x7b\x7d",
    "    public function format(string $format): string \x7b\x7d",
    "    public function getTimestamp(): int \x7b\x7d",
    "    public function getTimezone(): DateTimeZone|false \x7b\x7d",
    "    public function diff(DateTimeInterface $targetObject, " ++
      "bool $absolute = false): DateInterval \x7b\x7d",
    "    public function modify(string $modifier): DateTime|false \x7b\x7d",
    "\x7d",
    "",
    "class DateTimeImmutable implements DateTimeInterface",
    "\x7b",
    "    public function __construct(string $datetime = \"now\", " ++
      "?DateTimeZone $timezone = null) \x7b\x7d",
    "    public function format(string $format): string \x7b\x7d",
    "    public function getTimestamp(): int \x7b\x7d",
    "    public function getTimezone(): DateTimeZone|false \x7b\x7d",
    "    public function diff(DateTimeInterface $targetObject, " ++
      "bool $absolute = false): DateInterval \x7b\x7d",
    "    public function modify(string $modifier): DateTimeImmutable|false \x7b\x7d",
    "\x7d",
    "",
    "class DateTimeZone",
    "\x7b",
    "    public function __construct(string $timezone) \x7b\x7d",
    "    public function getName(): string \x7b\x7d",
    "\x7d",
    "",
    "class DateInterval",
    "\x7b",
    "    public function __construct(string $duration) \x7b\x7d",
    "    public function format(string $format): string \x7b\x7d",
    "\x7d",
    "",
    "/**",
    " * @template TKey",
    " * @template TValue",
    " * @implements IteratorAggregate<TKey, TValue>",
    " * @implements ArrayAccess<TKey, TValue>",
    " */",
    "class ArrayObject implements IteratorAggregate, ArrayAccess, Countable, Serializable",
    "\x7b",
    "    /** @param array<TKey, TValue>|object $array */",
    "    public function __construct(array|object $array = [], int $flags = 0, " ++
      "string $iteratorClass = ArrayIterator::class) \x7b\x7d",
    "    public function getIterator(): Iterator \x7b\x7d",
    "    public function offsetExists(mixed $key): bool \x7b\x7d",
    "    public function offsetGet(mixed $key): mixed \x7b\x7d",
    "    public function offsetSet(mixed $key, mixed $value): void \x7b\x7d",
    "    public function offsetUnset(mixed $key): void \x7b\x7d",
    "    public function count(): int \x7b\x7d",
    "    public function serialize(): string \x7b\x7d",
    "    public function unserialize(string $data): void \x7b\x7d",
    "    /** @return array<TKey, TValue> */",
    "    public function getArrayCopy(): array \x7b\x7d",
    "\x7d",
    "",
    "/**",
    " * @template TKey",
    " * @template TValue",
    " * @implements SeekableIterator<TKey, TValue>",
    " * @implements ArrayAccess<TKey, TValue>",
    " */",
    "class ArrayIterator implements SeekableIterator, ArrayAccess, Countable, Serializable",
    "\x7b",
    "    /** @param array<TKey, TValue> $array */",
    "    public function __construct(array|object $array = [], int $flags = 0) \x7b\x7d",
    "    public function current(): mixed \x7b\x7d",
    "    public function key(): string|int|null \x7b\x7d",
    "    public function next(): void \x7b\x7d",
    "    public function rewind(): void \x7b\x7d",
    "    public function valid(): bool \x7b\x7d",
    "    public function seek(int $offset): void \x7b\x7d",
    "    public function offsetExists(mixed $key): bool \x7b\x7d",
    "    public function offsetGet(mixed $key): mixed \x7b\x7d",
    "    public function offsetSet(mixed $key, mixed $value): void \x7b\x7d",
    "    public function offsetUnset(mixed $key): void \x7b\x7d",
    "    public function count(): int \x7b\x7d",
    "    public function serialize(): string \x7b\x7d",
    "    public function unserialize(string $data): void \x7b\x7d",
    "\x7d",
    "",
    "/**",
    " * @template TObject of object",
    " * @template TData",
    " * @implements Iterator<int, TObject>",
    " * @implements ArrayAccess<TObject, TData>",
    " */",
    "class SplObjectStorage implements Countable, Iterator, Serializable, ArrayAccess",
    "\x7b",
    "    public function attach(object $object, mixed $info = null): void \x7b\x7d",
    "    public function detach(object $object): void \x7b\x7d",
    "    public function contains(object $object): bool \x7b\x7d",
    "    public function count(int $mode = COUNT_NORMAL): int \x7b\x7d",
    "    public function current(): object \x7b\x7d",
    "    public function key(): int \x7b\x7d",
    "    public function next(): void \x7b\x7d",
    "    public function rewind(): void \x7b\x7d",
    "    public function valid(): bool \x7b\x7d",
    "    public function serialize(): string \x7b\x7d",
    "    public function unserialize(string $data): void \x7b\x7d",
    "    public function offsetExists($object): bool \x7b\x7d",
    "    public function offsetGet($object): mixed \x7b\x7d",
    "    public function offsetSet($object, mixed $info = null): void \x7b\x7d",
    "    public function offsetUnset($object): void \x7b\x7d",
    "\x7d",
    "",
    "/**",
    " * @template TKey of object",
    " * @template TValue",
    " * @implements IteratorAggregate<TKey, TValue>",
    " * @implements ArrayAccess<TKey, TValue>",
    " */",
    "final class WeakMap implements ArrayAccess, Countable, IteratorAggregate",
    "\x7b",
    "    public function count(): int \x7b\x7d",
    "    public function getIterator(): Iterator \x7b\x7d",
    "    public function offsetExists($object): bool \x7b\x7d",
    "    public function offsetGet($object): mixed \x7b\x7d",
    "    public function offsetSet($object, mixed $value): void \x7b\x7d",
    "    public function offsetUnset($object): void \x7b\x7d",
    "\x7d",
    "",
    "/** @template T of object */",
    "final class WeakReference",
    "\x7b",
    "    /**",
    "     * @template TIn of object",
    "     * @param TIn $object",
    "     * @return WeakReference<TIn>",
    "     */",
    "    public static function create(object $object): WeakReference \x7b\x7d",
    "    /** @return ?T */",
    "    public function get(): ?object \x7b\x7d",
    "\x7d",
    "",
    "final class Attribute",
    "\x7b",
    "    const TARGET_CLASS = 1;",
    "    const TARGET_FUNCTION = 2;",
    "    const TARGET_METHOD = 4;",
    "    const TARGET_PROPERTY = 8;",
    "    const TARGET_CLASS_CONSTANT = 16;",
    "    const TARGET_PARAMETER = 32;",
    "    const TARGET_ALL = 63;",
    "    const IS_REPEATABLE = 64;",
    "",
    "    public function __construct(public int $flags = Attribute::TARGET_ALL) \x7b\x7d",
    "\x7d",
    "",
    "class stdClass \x7b\x7d",
    ""]

/-- **The registry of the built-in classes.** -/
def builtins : Registry :=
  ((empty.register "<builtin>" ("\n".intercalate builtinLines) .builtin).toOption.map
    (·.2)).getD empty

end PhpHandbook.Registry
